/-
  PropertyGraph.Yaml.Place
  ────────────────────────
  **A PLACE IN A YAML TEXT.**

  YAML counts lines and columns: the column of a token says which block it
  belongs to, and a key has to end on the line that it begins on.  A `Place`
  is the text from somewhere on, with the line and column of its first
  character.

  Five characters end a line; a carriage return and the line feed after it
  are one line end.
-/

namespace PropertyGraph.Yaml

/-! ## §1. Characters. -/

/-- Blank or tab. -/
def isBlank (c : Char) : Bool := c == ' ' || c == '\t'

/-- Line and paragraph separators, which stay what they are in a scalar. -/
def isSeparator (c : Char) : Bool := c == '\u2028' || c == '\u2029'

/-- The characters that end a line. -/
def isBreak (c : Char) : Bool := c == '\n' || c == '\r' || c == '\u0085' || isSeparator c

/-- The characters a text may be made of. -/
def isAllowed (c : Char) : Bool :=
  c == '\t' || c == '\n' || c == '\r' || c == '\u0085'
    || (0x20 ≤ c.toNat && c.toNat ≤ 0x7E)
    || (0xA0 ≤ c.toNat && c.toNat ≤ 0xFFFD)
    || 0x10000 ≤ c.toNat

/-- Characters of anchors, directives and tag handles. -/
def isWordChar (c : Char) : Bool := c.isAlphanum || c == '_' || c == '-'

/-- Characters that end a plain scalar inside brackets. -/
def isBracketOrComma (c : Char) : Bool := ",[]\x7b\x7d".toList.contains c

/-- A line end, or nothing more. -/
def atBreak : List Char → Bool
  | [] => true
  | c :: _ => isBreak c

/-- A blank, a line end, or nothing more. -/
def atGap : List Char → Bool
  | [] => true
  | c :: _ => isBlank c || isBreak c

/-! ## §2. Places. -/

/-- The rest of a text, and where it begins. -/
structure Place where
  rest : List Char
  /-- Bytes before the place. -/
  index : Nat
  /-- Line ends before the place. -/
  line : Nat
  /-- Characters before the place on its line. -/
  column : Nat

namespace Place

/-- The beginning of a text. -/
def start (text : List Char) : Place := ⟨text, 0, 0, 0⟩

/-- The bytes before the place some characters further. -/
def indexAfter (place : Place) (count : Nat) : Nat :=
  (place.rest.take count).foldl (fun index c => index + c.utf8Size) place.index

/-- Some characters further on the same line. -/
def skip (place : Place) (count : Nat) : Place :=
  ⟨place.rest.drop count, place.indexAfter count, place.line, place.column + count⟩

/-- The characters of a class, and the place after them on the same line. -/
def takeWhile (place : Place) (p : Char → Bool) : List Char × Place :=
  let taken := place.rest.takeWhile p
  (taken, place.skip taken.length)

/-- Some characters further, at the beginning of the next line. -/
def nextLine (place : Place) (count : Nat) : Place :=
  ⟨place.rest.drop count, place.indexAfter count, place.line + 1, 0⟩

/-- The line end at a place, as it counts in a scalar, and the place after it. -/
def readBreak (place : Place) : List Char × Place :=
  match place.rest with
  | '\r' :: '\n' :: _ => (['\n'], place.nextLine 2)
  | c :: _ =>
    if isSeparator c then ([c], place.nextLine 1)
    else if isBreak c then (['\n'], place.nextLine 1)
    else ([], place)
  | [] => ([], place)

/-- Does a mark that begins or ends a document stand here? -/
def atMark (place : Place) (sign : Char) : Bool :=
  match place.rest with
  | a :: b :: c :: rest => place.column = 0 && a == sign && b == sign && c == sign && atGap rest
  | _ => false

/-- Does a document begin or end here? -/
def atDocumentMark (place : Place) : Bool := place.atMark '-' || place.atMark '.'

/-- The place after blanks. -/
def skipBlanks (place : Place) : Place := (place.takeWhile isBlank).2

/-- The place after a comment, if one begins here. -/
def skipComment (place : Place) : Place :=
  match place.rest with
  | '#' :: _ => (place.takeWhile (!isBreak ·)).2
  | _ => place

/-- The beginning of the next line, if only blanks and a comment come before. -/
def endLine? (place : Place) : Option Place :=
  let place := place.skipBlanks.skipComment
  if atBreak place.rest then some place.readBreak.2 else none

end Place

end PropertyGraph.Yaml
