/-
  PropertyGraph.Query.Reading
  ───────────────────────────
  **ORDERED CHOICE OVER A TEXT.**

  A `Reading α` takes a value of type `α` off the front of a text, or fails.
  Alternatives are tried in order and the first success counts; a repetition
  goes on as long as it can.  Every token takes the blanks after it along,
  so a reading always starts at a character that matters.

  What is read and what is reported are kept apart: `read` is the grammar,
  and `trace` follows the same steps for the sake of the failures on the
  way.  Statements about the language are about `read` alone.
-/
import PropertyGraph.Query.Failure

namespace PropertyGraph.Query

/-- Something that can be read off the front of a text. -/
structure Reading (α : Type) where
  /-- The value and the rest of the text. -/
  read : List Char → Option (α × List Char)
  /-- The failures after an attempt. -/
  trace : List Char → Failures → Failures

namespace Reading

variable {α β : Type}

/-! ## §1. Sequence and choice. -/

/-- Reads nothing. -/
def unit (a : α) : Reading α := ⟨fun text => some (a, text), fun _ failures => failures⟩

/-- One reading after the other. -/
def andThen (first : Reading α) (next : α → Reading β) : Reading β where
  read text :=
    match first.read text with
    | some (a, rest) => (next a).read rest
    | none => none
  trace text failures :=
    match first.read text with
    | some (a, rest) => (next a).trace rest (first.trace text failures)
    | none => first.trace text failures

instance : Monad Reading where
  pure := unit
  bind := andThen

/-- The first reading, or else the second. -/
def orElse (first second : Reading α) : Reading α where
  read text :=
    match first.read text with
    | some result => some result
    | none => second.read text
  trace text failures :=
    match first.read text with
    | some _ => first.trace text failures
    | none => second.trace text (first.trace text failures)

instance : OrElse (Reading α) := ⟨fun first second => orElse first (second ())⟩

theorem read_pure (a : α) (text : List Char) :
    (pure a : Reading α).read text = some (a, text) := rfl

theorem read_bind (first : Reading α) (next : α → Reading β) (text : List Char) :
    (first >>= next).read text
      = (first.read text).bind (fun result => (next result.1).read result.2) := by
  show (match first.read text with
    | some (a, rest) => (next a).read rest
    | none => none) = _
  cases first.read text <;> rfl

theorem read_orElse (first second : Reading α) (text : List Char) :
    (orElse first second).read text = (first.read text).or (second.read text) := by
  show (match first.read text with
    | some result => some result
    | none => second.read text) = _
  cases first.read text <;> rfl

/-- The reading, or nothing. -/
def optional (reading : Reading α) : Reading (Option α) :=
  orElse (andThen reading (fun a => unit (some a))) (unit none)

/-! ## §2. Repetition. -/

/-- Reads as often as possible, at most `fuel` times. -/
def readMany (reading : Reading α) : Nat → List Char → List α × List Char
  | 0, text => ([], text)
  | fuel + 1, text =>
    match reading.read text with
    | none => ([], text)
    | some (a, rest) =>
      let (items, rest) := readMany reading fuel rest
      (a :: items, rest)

/-- The failures of `readMany`. -/
def traceMany (reading : Reading α) : Nat → List Char → Failures → Failures
  | 0, _, failures => failures
  | fuel + 1, text, failures =>
    match reading.read text with
    | none => reading.trace text failures
    | some (_, rest) => traceMany reading fuel rest (reading.trace text failures)

/-- Reads as often as possible.  A reading that takes at least one character
each time cannot go on longer than the text. -/
def many (reading : Reading α) : Reading (List α) where
  read text := some (readMany reading (text.length + 1) text)
  trace text failures := traceMany reading (text.length + 1) text failures

/-- One or more, with a separator before each further one. -/
def separated (reading : Reading α) (separator : Reading Unit) : Reading (List α) := do
  let first ← reading
  let rest ← many (do separator; reading)
  return first :: rest

/-! ## §3. Rules. -/

/-- A named rule: a failure is recorded under its name. -/
def rule (name : Rule) (body : Reading α) : Reading α where
  read := body.read
  trace text failures :=
    match body.read text with
    | some _ => body.trace text failures
    | none => Failures.afterRule name text.length failures (body.trace text failures)

@[simp] theorem read_rule (name : Rule) (body : Reading α) :
    (rule name body).read = body.read := rfl

/-! ## §4. Tokens. -/

/-- Space, tab, carriage return, line feed. -/
def isBlank (c : Char) : Bool := c == ' ' || c == '\t' || c == '\r' || c == '\n'

/-- The text after leading blanks. -/
def skipBlanks (text : List Char) : List Char := text.dropWhile isBlank

/-- Leading blanks. -/
def blanks : Reading Unit :=
  ⟨fun text => some ((), skipBlanks text), fun _ failures => failures⟩

/-- A token read by `scan`, and the blanks after it. -/
def lexeme (scan : List Char → Option (α × List Char)) : Reading α :=
  ⟨fun text => (scan text).map (fun (a, rest) => (a, skipBlanks rest)),
    fun _ failures => failures⟩

/-- A token with a name. -/
def token (name : Rule) (scan : List Char → Option (α × List Char)) : Reading α :=
  rule name (lexeme scan)

/-- A fixed text; its absence is not recorded. -/
def symbol (expected : String) : Reading Unit :=
  lexeme (fun text =>
    if expected.toList.isPrefixOf text then some ((), text.drop expected.length) else none)

/-- The end of the text. -/
def endOfInput : Reading Unit :=
  rule .endOfInput
    ⟨fun text => if text.isEmpty then some ((), []) else none, fun _ failures => failures⟩

end Reading

end PropertyGraph.Query
