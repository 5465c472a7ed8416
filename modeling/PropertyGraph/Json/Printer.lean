/-
  PropertyGraph.Json.Printer
  ──────────────────────────
  **JSON TEXT.**

  One writer serves results and data files in two layouts: compact, and
  indented by two blanks a level, where an empty array or object stays on
  one line.  It writes in front of a given rest, so a text is built once and
  a statement about what follows a value needs no splitting.

  Floats always show that they are floats: positionally where the exponent
  of the first digit is from −5 to 15, with at least one digit after the
  point, and otherwise with a signed power of ten.
-/
import PropertyGraph.Json.Basic
import PropertyGraph.Number.Shortest

namespace PropertyGraph.Json

/-- Whether a text stands on one line or is indented. -/
inductive Layout where
  | compact
  | indented
  deriving DecidableEq

/-! ## §1. Numbers. -/

/-- Floats in JSON: ties go to the even digit, `30.0`, `0.00001`, `1e+16`. -/
def numberStyle : NumberStyle := ⟨.even, some (-5, 15), true⟩

/-- The decimal digits of an integer. -/
def intText (i : Int) : List Char :=
  if i < 0 then '-' :: Nat.toDigits 10 i.natAbs else Nat.toDigits 10 i.natAbs

/-! ## §2. Strings. -/

/-- The lower-case hexadecimal digit of a number below sixteen. -/
def hexDigit (n : Nat) : Char :=
  if n < 10 then Char.ofNat (48 + n) else Char.ofNat (87 + n)

/-- A character inside quotes: quote, backslash and control characters are
escaped, everything else stands for itself. -/
def escape (c : Char) : List Char :=
  if c = '"' then ['\\', '"']
  else if c = '\\' then ['\\', '\\']
  else if c = '\x08' then ['\\', 'b']
  else if c = '\x0c' then ['\\', 'f']
  else if c = '\n' then ['\\', 'n']
  else if c = '\r' then ['\\', 'r']
  else if c = '\t' then ['\\', 't']
  else if c.toNat < 0x20 then
    ['\\', 'u', '0', '0', hexDigit (c.toNat / 16), hexDigit (c.toNat % 16)]
  else [c]

/-- The rest of a string from inside its quotes, before `rest`. -/
def writeChars : List Char → List Char → List Char
  | [], rest => '"' :: rest
  | c :: cs, rest => escape c ++ writeChars cs rest

/-- A quoted string before `rest`. -/
def writeString (s : String) (rest : List Char) : List Char :=
  '"' :: writeChars s.toList rest

/-! ## §3. Values. -/

/-- A new line at a level, in the indented layout. -/
def writeBreak (layout : Layout) (level : Nat) (rest : List Char) : List Char :=
  match layout with
  | .compact => rest
  | .indented => '\n' :: (List.replicate (2 * level) ' ' ++ rest)

/-- The colon after a member's name. -/
def writeColon (layout : Layout) (rest : List Char) : List Char :=
  match layout with
  | .compact => ':' :: rest
  | .indented => ':' :: ' ' :: rest

mutual

/-- A value at a level, before `rest`. -/
def write (layout : Layout) (level : Nat) : Json → List Char → List Char
  | .null, rest => 'n' :: 'u' :: 'l' :: 'l' :: rest
  | .bool true, rest => 't' :: 'r' :: 'u' :: 'e' :: rest
  | .bool false, rest => 'f' :: 'a' :: 'l' :: 's' :: 'e' :: rest
  | .int i, rest => intText i ++ rest
  | .float x, rest => x.text numberStyle ++ rest
  | .str s, rest => writeString s rest
  | .array [], rest => '[' :: ']' :: rest
  | .array (item :: items), rest =>
    '[' :: writeBreak layout (level + 1)
      (write layout (level + 1) item
        (writeItems layout (level + 1) items (writeBreak layout level (']' :: rest))))
  | .object [], rest => '{' :: '}' :: rest
  | .object ((name, value) :: members), rest =>
    '{' :: writeBreak layout (level + 1)
      (writeString name (writeColon layout
        (write layout (level + 1) value
          (writeMembers layout (level + 1) members (writeBreak layout level ('}' :: rest))))))

/-- Further items, each after a comma. -/
def writeItems (layout : Layout) (level : Nat) : List Json → List Char → List Char
  | [], rest => rest
  | item :: items, rest =>
    ',' :: writeBreak layout level
      (write layout level item (writeItems layout level items rest))

/-- Further members, each after a comma. -/
def writeMembers (layout : Layout) (level : Nat) :
    List (String × Json) → List Char → List Char
  | [], rest => rest
  | (name, value) :: members, rest =>
    ',' :: writeBreak layout level
      (writeString name (writeColon layout
        (write layout level value (writeMembers layout level members rest))))

end

/-- The text of a value. -/
def text (layout : Layout) (value : Json) : String :=
  String.ofList (write layout 0 value [])

/-- The text of a value on one line. -/
def compact (value : Json) : String := text .compact value

end PropertyGraph.Json
