/-
  PropertyGraph.Json.Reader
  ─────────────────────────
  **READING JSON TEXT.**

  Standard JSON: blanks are space, tab, line feed and carriage return;
  strings hold no bare control characters, and an escaped surrogate must be
  the first half of an escaped pair; numbers have no leading zeros and
  digits on both sides of a point.  Arrays and objects may be nested up to a
  given depth.

  A whole number between −2^63 and 2^64 is an integer, every other number a
  float, `-0` among them; a number past the finite floats is not admitted.
  Floats are taken by their leading digits (`Numeral.toScaledBinary64`), so
  a long number may come out one float beside the nearest.

  Values, items and members call each other, so the readers count down a
  fuel that `parse` computes from the length of the text: every call but a
  constant number per character consumes something.
-/
import PropertyGraph.Json.Basic
import PropertyGraph.Number.Scaled
import PropertyGraph.Text.Escape

namespace PropertyGraph.Json

open PropertyGraph.Text

/-! ## §1. Blanks. -/

/-- Space, tab, line feed, carriage return. -/
def isBlank (c : Char) : Bool := c == ' ' || c == '\t' || c == '\n' || c == '\r'

/-- The text after leading blanks. -/
def skipBlanks (text : List Char) : List Char := text.dropWhile isBlank

/-! ## §2. Numbers. -/

/-- An optional point with at least one digit after it. -/
def readFraction : List Char → Option (Option (List Char) × List Char)
  | '.' :: text =>
    let digits := text.takeWhile Char.isDigit
    if digits.isEmpty then none else some (some digits, text.dropWhile Char.isDigit)
  | text => some (none, text)

/-- An optional power of ten with at least one digit. -/
def readPower : List Char → Option (Option PowerOfTen × List Char)
  | c :: text =>
    if c = 'e' ∨ c = 'E' then
      let (sign, text) := SignMark.read text
      let digits := text.takeWhile Char.isDigit
      if digits.isEmpty then none
      else some (some ⟨c, sign, digits⟩, text.dropWhile Char.isDigit)
    else some (none, c :: text)
  | [] => some (none, [])

/-- The digits before the point: one zero, or any number that starts with
another digit. -/
def readWhole : List Char → Option (List Char × List Char)
  | '0' :: text => some (['0'], text)
  | text =>
    let digits := text.takeWhile Char.isDigit
    if digits.isEmpty then none else some (digits, text.dropWhile Char.isDigit)

/-- A number in its parts. -/
def readNumeral (text : List Char) : Option (Numeral × List Char) := do
  let (sign, text) := match text with
    | '-' :: text => (SignMark.minus, text)
    | text => (SignMark.absent, text)
  let (whole, text) ← readWhole text
  let (fraction, text) ← readFraction text
  let (power, text) ← readPower text
  return (⟨sign, whole, fraction, power⟩, text)

/-- The value of a number, if it is finite. -/
def ofNumeral? (n : Numeral) : Option Json :=
  -- an integer zero has no sign, so a signed one is a float
  if n.isWhole ∧ Int64.minValue.toInt ≤ n.toInt ∧ n.toInt < UInt64.size
      ∧ ¬ (n.toInt = 0 ∧ n.sign.negative) then
    some (.int n.toInt)
  else
    n.toScaledBinary64.finite?.map .float

/-! ## §3. Strings. -/

/-- One character of a string, before its closing quote. -/
def readChar : List Char → Option (Char × List Char)
  | '\\' :: 'u' :: a :: b :: c :: d :: text => do
    let unit ← hexValue4? a b c d
    if isSurrogate unit then
      match text with
      | '\\' :: 'u' :: a :: b :: c :: d :: text =>
        let low ← hexValue4? a b c d
        return (← pairChar? unit low, text)
      | _ => none
    else
      return (Char.ofNat unit, text)
  | '\\' :: c :: text => (unescape? c).map (·, text)
  | c :: text => if c.toNat < 0x20 then none else some (c, text)
  | [] => none

/-- The characters up to the closing quote. -/
def readChars : Nat → List Char → Option (List Char × List Char)
  | 0, _ => none
  | _ + 1, '"' :: text => some ([], text)
  | fuel + 1, text => do
    let (c, text) ← readChar text
    let (cs, text) ← readChars fuel text
    return (c :: cs, text)

/-- A string whose opening quote has been read. -/
def readString (text : List Char) : Option (String × List Char) := do
  let (cs, text) ← readChars (text.length + 1) text
  return (String.ofList cs, text)

/-! ## §4. Values. -/

mutual

/-- A value nested at most `depth` deep, after any blanks. -/
def readValue : Nat → Nat → List Char → Option (Json × List Char)
  | 0, _, _ => none
  | fuel + 1, depth, text =>
    match skipBlanks text with
    | '"' :: text => do
      let (s, text) ← readString text
      return (.str s, text)
    | '[' :: text =>
      match depth with
      | 0 => none
      | depth + 1 =>
        match skipBlanks text with
        | ']' :: text => some (.array [], text)
        | text => do
          let (items, text) ← readItems fuel depth text
          return (.array items, text)
    | '{' :: text =>
      match depth with
      | 0 => none
      | depth + 1 =>
        match skipBlanks text with
        | '}' :: text => some (.object [], text)
        | text => do
          let (members, text) ← readMembers fuel depth text
          return (.object members, text)
    | 'n' :: 'u' :: 'l' :: 'l' :: text => some (.null, text)
    | 't' :: 'r' :: 'u' :: 'e' :: text => some (.bool true, text)
    | 'f' :: 'a' :: 'l' :: 's' :: 'e' :: text => some (.bool false, text)
    | text => do
      let (n, text) ← readNumeral text
      return (← ofNumeral? n, text)

/-- One or more items and the closing bracket. -/
def readItems : Nat → Nat → List Char → Option (List Json × List Char)
  | 0, _, _ => none
  | fuel + 1, depth, text => do
    let (item, text) ← readValue fuel depth text
    match skipBlanks text with
    | ']' :: text => return ([item], text)
    | ',' :: text =>
      let (items, text) ← readItems fuel depth text
      return (item :: items, text)
    | _ => none

/-- One or more members and the closing brace. -/
def readMembers : Nat → Nat → List Char → Option (List (String × Json) × List Char)
  | 0, _, _ => none
  | fuel + 1, depth, text =>
    match skipBlanks text with
    | '"' :: text => do
      let (name, text) ← readString text
      match skipBlanks text with
      | ':' :: text =>
        let (value, text) ← readValue fuel depth text
        match skipBlanks text with
        | '}' :: text => return ([(name, value)], text)
        | ',' :: text =>
          let (members, text) ← readMembers fuel depth text
          return ((name, value) :: members, text)
        | _ => none
      | _ => none
    | _ => none

end

/-- The value of a whole text, with blanks around it, nested at most `depth`
deep. -/
def parse (depth : Nat) (text : String) : Option Json :=
  let chars := text.toList
  match readValue (2 * chars.length + 2) depth chars with
  | some (value, rest) => if (skipBlanks rest).isEmpty then some value else none
  | none => none

end PropertyGraph.Json
