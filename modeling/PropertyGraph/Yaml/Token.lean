/-
  PropertyGraph.Yaml.Token
  ────────────────────────
  **TOKENS OF A YAML TEXT.**

  Outside brackets the column of a token decides which block it belongs to:
  a token further right opens a block, one further left closes blocks, and
  both are tokens of their own.  That a scalar is a key is known only at the
  colon after it.  So a scanner remembers where a key may have begun, and
  the colon puts the tokens for the key, and for the block that it opens,
  in front of it.

  Such a key ends on its own line and has at most 1024 bytes.  At the
  column of its block it must be a key.
-/
import PropertyGraph.Yaml.Scalar

namespace PropertyGraph.Yaml

/-- What a YAML text is made of. -/
inductive Token where
  /-- The version that a text is written for. -/
  | version (major minor : Nat)
  /-- A short handle for the beginnings of tags. -/
  | tagHandle (handle stem : String)
  | documentStart
  | documentEnd
  | blockSequence
  | blockMapping
  | blockEnd
  | flowSequence
  | flowSequenceEnd
  | flowMapping
  | flowMappingEnd
  /-- The dash of a sequence. -/
  | entry
  | comma
  | key
  | value
  | alias (name : String)
  | anchor (name : String)
  | tag (handle suffix : String)
  | scalar (style : ScalarStyle) (text : String)
  deriving DecidableEq

/-! ## §1. Tags, anchors and directives. -/

/-- The name of an anchor or an alias. -/
def readAnchor (place : Place) : Option (String × Place) :=
  let (name, next) := place.takeWhile isWordChar
  if ¬ name.isEmpty ∧ (atGap next.rest ∨ next.rest.head?.any "?:,]\x7d%@\x60".toList.contains) then
    some (String.ofList name, next)
  else none

/-- An octet written as a percent sign and two hexadecimal digits. -/
def readOctet (place : Place) : Option (UInt8 × Place) :=
  match place.rest with
  | '%' :: a :: b :: _ => (hexValue? [a, b]).map (fun n => (n.toUInt8, place.skip 3))
  | _ => none

/-- Further octets of a character. -/
def readOctets : Nat → Place → Option (List UInt8 × Place)
  | 0, place => some ([], place)
  | count + 1, place => do
    let (octet, place) ← readOctet place
    if octet &&& 0xC0 ≠ 0x80 then none
    else
      let (octets, place) ← readOctets count place
      return (octet :: octets, place)

/-- A character of a tag written as octets in UTF-8.  Octets that have the
form of a character but are none stand for the replacement character. -/
def readEncodedChar (place : Place) : Option (Char × Place) := do
  let (first, place) ← readOctet place
  let more ←
    if first < 0x80 then some 0
    else if first &&& 0xE0 = 0xC0 then some 1
    else if first &&& 0xF0 = 0xE0 then some 2
    else if first &&& 0xF8 = 0xF0 then some 3
    else none
  let (octets, place) ← readOctets more place
  let text := (String.fromUTF8? ⟨(first :: octets).toArray⟩).getD ""
  return (text.toList.headD '\ufffd', place)

/-- Characters of tags; `verbatim` ones may have brackets and commas. -/
def isTagChar (verbatim : Bool) (c : Char) : Bool :=
  isWordChar c || ";/?:@&=+$.!~*'()%".toList.contains c || (verbatim && ",[]".toList.contains c)

/-- The characters of a tag. -/
def readTagChars (verbatim : Bool) : Nat → Place → Option (List Char × Place)
  | 0, _ => none
  | fuel + 1, place =>
    match place.rest with
    | [] => some ([], place)
    | c :: _ =>
      if ¬ isTagChar verbatim c then some ([], place)
      else do
        let (c, place) ← if c = '%' then readEncodedChar place else some (c, place.skip 1)
        let (cs, place) ← readTagChars verbatim fuel place
        return (c :: cs, place)

/-- The text of a tag; a NUL, which can only be written as an octet, ends it. -/
def tagText (cs : List Char) : String := String.ofList (cs.takeWhile (· ≠ '\x00'))

/-- A tag, or a beginning of tags, with at least one character. -/
def readTagText (verbatim : Bool) (place : Place) : Option (String × Place) := do
  let (cs, place) ← readTagChars verbatim (place.rest.length + 1) place
  if cs.isEmpty then none else return (tagText cs, place)

/-- The handle of a tag after its first exclamation mark: word characters and
perhaps another one. -/
def readHandle (place : Place) : List Char × Bool × Place :=
  let (word, place) := place.takeWhile isWordChar
  if place.rest.head? = some '!' then (word, true, place.skip 1) else (word, false, place)

/-- A tag after its exclamation mark, as its handle and the rest. -/
def readTagParts (place : Place) : Option (String × String × Place) :=
  match place.rest with
  | '<' :: _ => do
    let (text, place) ← readTagText true (place.skip 1)
    if place.rest.head? = some '>' then return ("", text, place.skip 1) else none
  | _ =>
    match readHandle place with
    | (word, true, place) => do
      let (suffix, place) ← readTagText false place
      return ("!" ++ String.ofList word ++ "!", suffix, place)
    | (word, false, place) => do
      -- no handle of its own: the word belongs to the rest
      let (more, place) ← readTagChars false (place.rest.length + 1) place
      let suffix := tagText (word ++ more)
      return if suffix = "" then ("", "!", place) else ("!", suffix, place)

/-- A number of at most nine digits. -/
def readVersionPart (place : Place) : Option (Nat × Place) :=
  let (digits, place) := place.takeWhile Char.isDigit
  if digits.isEmpty ∨ 9 < digits.length then none else some (Nat.ofDigitChars 10 digits 0, place)

/-- A directive after its percent sign. -/
def readDirective (place : Place) : Option (Token × Place) := do
  let (name, place) := place.takeWhile isWordChar
  if ¬ atGap place.rest then none
  else if name = "YAML".toList then
    let (major, place) ← readVersionPart place.skipBlanks
    if place.rest.head? = some '.' then
      let (minor, place) ← readVersionPart (place.skip 1)
      return (.version major minor, ← place.endLine?)
    else none
  else if name = "TAG".toList then
    let place := place.skipBlanks
    if place.rest.head? ≠ some '!' then none
    else
      let (word, closed, place) := readHandle (place.skip 1)
      let handle := if closed then "!" ++ String.ofList word ++ "!" else "!"
      if ¬ closed ∧ ¬ word.isEmpty then none
      else if ¬ place.rest.head?.any isBlank then none
      else
        let (stem, place) ← readTagText true place.skipBlanks
        if atGap place.rest then return (.tagHandle handle stem, ← place.endLine?) else none
  else none

/-! ## §2. The scanner. -/

/-- A place where a key may have begun. -/
structure KeyPlace where
  /-- Tokens before the key. -/
  position : Nat
  /-- Must it be a key? -/
  required : Bool
  index : Nat
  line : Nat
  column : Nat

/-- The tokens so far and what decides about the next ones. -/
structure Scanner where
  place : Place
  tokens : Array Token
  /-- The columns of the open blocks, the innermost first. -/
  blocks : List Nat
  /-- Where a key of the innermost collection may have begun. -/
  key : Option KeyPlace
  /-- The same for the collections around it; one for each open bracket. -/
  outerKeys : List (Option KeyPlace)
  /-- May a key begin here? -/
  keyAllowed : Bool

namespace Scanner

/-- The scanner at the beginning of a text. -/
def start (text : List Char) : Scanner := ⟨.start text, #[], [], none, [], true⟩

/-- Is a bracket open? -/
def inFlow (s : Scanner) : Bool := !s.outerKeys.isEmpty

/-- The least column of text that goes on inside the innermost block. -/
def margin (s : Scanner) : Nat :=
  match s.blocks with
  | [] => 0
  | column :: _ => column + 1

/-- Adds a token. -/
def push (s : Scanner) (token : Token) : Scanner := { s with tokens := s.tokens.push token }

/-- Adds a token in front of later ones. -/
def insert (s : Scanner) (position : Nat) (token : Token) : Scanner :=
  { s with
    tokens := s.tokens.extract 0 position ++ #[token]
      ++ s.tokens.extract position s.tokens.size }

/-- The scanner further on in the text. -/
def move (s : Scanner) (place : Place) : Scanner := { s with place }

/-- The scanner with another answer to whether a key may begin. -/
def allowKey (s : Scanner) (allowed : Bool) : Scanner := { s with keyAllowed := allowed }

/-- Gives up the beginning of a key; not if it had to be one. -/
def dropKey (s : Scanner) : Option Scanner :=
  if s.key.any KeyPlace.required then none else some { s with key := none }

/-- Remembers that a key may begin here. -/
def saveKey (s : Scanner) : Option Scanner :=
  if s.keyAllowed then
    s.dropKey.map (fun s =>
      { s with
        key := some
          ⟨s.tokens.size, !s.inFlow && s.blocks.head? = some s.place.column,
            s.place.index, s.place.line, s.place.column⟩ })
  else some s

/-- Can what began there still be a key here? -/
def isFresh (place : Place) (key : KeyPlace) : Bool :=
  place.line ≤ key.line && place.index ≤ key.index + 1024

/-- Gives up beginnings of keys that are too far back. -/
def dropOldKeys (s : Scanner) : Option Scanner :=
  let fresh := Option.filter (isFresh s.place)
  if (s.key :: s.outerKeys).all (fun key => key.all (fun k => isFresh s.place k || !k.required))
  then some { s with key := fresh s.key, outerKeys := s.outerKeys.map fresh }
  else none

/-- Closes the blocks for which `closes` holds of the column. -/
def closeBlocks (s : Scanner) (closes : Nat → Bool) : Scanner :=
  if s.inFlow then s
  else
    let closed := s.blocks.takeWhile closes
    { s with
      tokens := s.tokens ++ Array.replicate closed.length .blockEnd
      blocks := s.blocks.drop closed.length }

/-- Opens a block at a column to the right of the innermost one. -/
def openBlock (s : Scanner) (column position : Nat) (token : Token) : Scanner :=
  if s.inFlow || s.blocks.head?.any (column ≤ ·) then s
  else { s.insert position token with blocks := column :: s.blocks }

/-- Opens a block at the place of the scanner, where an entry may begin. -/
def openBlockHere (s : Scanner) (token : Token) : Option Scanner :=
  if s.inFlow then some s
  else if s.keyAllowed then some (s.openBlock s.place.column s.tokens.size token)
  else none

/-- Blanks, comments and line ends before a token.  Outside brackets a new
line may begin with a key; where one may begin, a tab is no blank.  A
byte-order mark counts for nothing at the beginning of a line. -/
def skipToToken : Nat → Scanner → Scanner
  | 0, s => s
  | fuel + 1, s =>
    let place := if s.place.column = 0 ∧ s.place.rest.head? = some '\ufeff' then s.place.skip 1
      else s.place
    let tabs := s.inFlow || !s.keyAllowed
    let place := (place.takeWhile (fun c => c == ' ' || (tabs && c == '\t'))).2.skipComment
    if place.rest.head?.any isBreak then
      skipToToken fuel
        { s with place := place.readBreak.2, keyAllowed := s.keyAllowed || !s.inFlow }
    else { s with place }

/-! ## §3. Single tokens. -/

/-- A directive, or the beginning or end of a document: it closes all blocks. -/
def readMarker (s : Scanner) (read : Place → Option (Token × Place)) : Option Scanner := do
  let s ← (s.closeBlocks (fun _ => true)).dropKey
  let (token, place) ← read s.place
  return ((s.allowKey false).move place).push token

/-- An opening bracket, which may begin a key. -/
def openBracket (s : Scanner) (token : Token) : Option Scanner := do
  let s ← s.saveKey
  return { (s.push token).move (s.place.skip 1) with
    key := none, outerKeys := s.key :: s.outerKeys, keyAllowed := true }

/-- A closing bracket. -/
def closeBracket (s : Scanner) (token : Token) : Option Scanner := do
  let s ← s.dropKey
  let s := ((s.push token).move (s.place.skip 1)).allowKey false
  match s.outerKeys with
  | key :: outerKeys => return { s with key, outerKeys }
  | [] => return s

/-- A comma. -/
def readComma (s : Scanner) : Option Scanner := do
  let s ← s.dropKey
  return ((s.push .comma).move (s.place.skip 1)).allowKey true

/-- The dash of an entry. -/
def readEntry (s : Scanner) : Option Scanner := do
  let s ← (← s.openBlockHere .blockSequence).dropKey
  return ((s.push .entry).move (s.place.skip 1)).allowKey true

/-- The question mark of a key. -/
def readKey (s : Scanner) : Option Scanner := do
  let s ← (← s.openBlockHere .blockMapping).dropKey
  return ((s.push .key).move (s.place.skip 1)).allowKey !s.inFlow

/-- The colon of a value, after a key that began where the scanner remembers,
or after a question mark. -/
def readValue (s : Scanner) : Option Scanner := do
  let s ← match s.key with
    | some key =>
      let s := (s.insert key.position .key).openBlock key.column key.position .blockMapping
      some ({ s with key := none }.allowKey false)
    | none => (s.openBlockHere .blockMapping).map (·.allowKey !s.inFlow)
  return (s.push .value).move (s.place.skip 1)

/-- A token that may begin a key. -/
def readProperty (s : Scanner) (read : Place → Option (Token × Place)) : Option Scanner := do
  let s ← s.saveKey
  let (token, place) ← read s.place
  return ((s.allowKey false).move place).push token

/-- An anchor or an alias. -/
def readName (s : Scanner) (token : String → Token) : Option Scanner :=
  s.readProperty (fun place => do
    let (name, place) ← readAnchor (place.skip 1)
    return (token name, place))

/-- A tag; a blank or a line end follows it, or a comma inside brackets. -/
def readTag (s : Scanner) : Option Scanner :=
  s.readProperty (fun place => do
    let (handle, suffix, place) ← readTagParts (place.skip 1)
    if atGap place.rest || (s.inFlow && place.rest.head? = some ',') then
      return (.tag handle suffix, place)
    else none)

/-- A scalar in quotes. -/
def readQuotedScalar (s : Scanner) (quote : Char) (style : ScalarStyle) : Option Scanner :=
  s.readProperty (fun place => do
    let (text, place) ← readQuoted quote (place.rest.length + 1) (place.skip 1)
    return (.scalar style (String.ofList text), place))

/-- A plain scalar.  After a line end a key may begin. -/
def readPlainScalar (s : Scanner) : Option Scanner := do
  let s ← s.saveKey
  let (text, broken, place) ←
    readPlain s.inFlow s.margin (s.place.rest.length + 1) s.place .empty
  return ((s.push (.scalar .plain (String.ofList text))).move place).allowKey broken

/-- A block scalar. -/
def readBlockScalar (s : Scanner) (style : ScalarStyle) : Option Scanner := do
  let s ← s.dropKey
  let (text, place) ← readBlock style s.blocks.head? (s.place.skip 1)
  return ((s.push (.scalar style (String.ofList text))).move place).allowKey true

/-- Characters that begin no plain scalar. -/
def isIndicator (c : Char) : Bool := "-?:,[]\x7b\x7d#&*!|>'\"%@\x60".toList.contains c

/-- Can a plain scalar begin with `c`, with `rest` after it? -/
def beginsPlain (inFlow : Bool) (c : Char) (rest : List Char) : Bool :=
  !(isBlank c || isBreak c || isIndicator c)
    || (c == '-' && !rest.head?.any isBlank)
    || (!inFlow && (c == '?' || c == ':') && !atGap rest)

/-- The token at the place of the scanner, which begins with `c`. -/
def next (s : Scanner) (c : Char) (rest : List Char) : Option Scanner :=
  if c = '%' ∧ s.place.column = 0 then
    s.readMarker (fun place => readDirective (place.skip 1))
  else if s.place.atMark '-' then s.readMarker (fun place => some (.documentStart, place.skip 3))
  else if s.place.atMark '.' then s.readMarker (fun place => some (.documentEnd, place.skip 3))
  else if c = '[' then s.openBracket .flowSequence
  else if c = '\x7b' then s.openBracket .flowMapping
  else if c = ']' then s.closeBracket .flowSequenceEnd
  else if c = '\x7d' then s.closeBracket .flowMappingEnd
  else if c = ',' then s.readComma
  else if c = '-' ∧ atGap rest then s.readEntry
  else if c = '?' ∧ (s.inFlow ∨ atGap rest) then s.readKey
  else if c = ':' ∧ (s.inFlow ∨ atGap rest) then s.readValue
  else if c = '*' then s.readName .alias
  else if c = '&' then s.readName .anchor
  else if c = '!' then s.readTag
  else if c = '|' ∧ ¬ s.inFlow then s.readBlockScalar .literal
  else if c = '>' ∧ ¬ s.inFlow then s.readBlockScalar .folded
  else if c = '\'' then s.readQuotedScalar '\'' .singleQuoted
  else if c = '"' then s.readQuotedScalar '"' .doubleQuoted
  else if beginsPlain s.inFlow c rest then s.readPlainScalar
  else none

/-- The tokens of the rest of the text. -/
def run : Nat → Scanner → Option (Array Token)
  | 0, _ => none
  | fuel + 1, s => do
    let s ← (skipToToken (s.place.rest.length + 1) s).dropOldKeys
    let s := s.closeBlocks (s.place.column < ·)
    match s.place.rest with
    | [] => return (← (s.closeBlocks (fun _ => true)).dropKey).tokens
    | c :: rest => run fuel (← s.next c rest)

end Scanner

/-- The tokens of a text, if it is YAML that far. -/
def Token.scan (text : String) : Option (List Token) :=
  let chars := text.toList
  if chars.all isAllowed then (Scanner.run (chars.length + 2) (.start chars)).map Array.toList
  else none

end PropertyGraph.Yaml
