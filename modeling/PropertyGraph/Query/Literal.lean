/-
  PropertyGraph.Query.Literal
  ───────────────────────────
  **LITERALS AS SPELLED, AND THEIR VALUES.**

  A literal of a query is a quoted string or a number.  The grammar only
  fixes its spelling; not every spelling has a value: a whole number may not
  fit 64 bits, another number may be past every finite float, and a `\u`
  escape may name a surrogate.  `SpelledLiteral.value` gives the value, or
  else the part of the text that has none.

  Values are taken only once a whole text has passed the grammar, and in
  the order of the text (`Statement.evaluate`), so the first literal without
  a value is the one reported.
-/
import PropertyGraph.Number.Numeral
import PropertyGraph.Query.Syntax
import PropertyGraph.Text.Escape

namespace PropertyGraph.Query

open PropertyGraph.Text

/-! ## §1. Spellings. -/

/-- One character of a quoted string, as spelled. -/
inductive StringPiece where
  /-- The character itself. -/
  | plain (c : Char)
  /-- A backslash and one letter. -/
  | short (letter : Char)
  /-- A backslash, `u` and four hexadecimal digits. -/
  | unicode (a b c d : Char)
  deriving DecidableEq

/-- A literal, as spelled. -/
inductive SpelledLiteral where
  | string (pieces : List StringPiece)
  | number (numeral : Numeral)
  deriving DecidableEq

/-- Properties of a descriptor, as spelled. -/
abbrev SpelledProperties := List (String × SpelledLiteral)

/-- A statement whose literals are still spellings. -/
abbrev SpelledStatement := Statement SpelledProperties SpelledLiteral

/-- A statement whose literals have their values. -/
abbrev GraphStatement := Statement PropertyMap Value

/-- A pattern whose properties have their values. -/
abbrev GraphPattern := Pattern PropertyMap

/-! ## §2. Reading a spelling. -/

/-- The letters that may follow a backslash. -/
def isShortEscape (letter : Char) : Bool := (unescape? letter).isSome

/-- Hexadecimal digits of either case. -/
def isHexDigit (c : Char) : Bool := (hexValue? c).isSome

/-- Pieces up to the closing quote. -/
def readPieces : List Char → Option (List StringPiece × List Char)
  | '"' :: text => some ([], text)
  | '\\' :: 'u' :: a :: b :: c :: d :: text =>
    if isHexDigit a && isHexDigit b && isHexDigit c && isHexDigit d then
      (readPieces text).map (fun (pieces, rest) => (.unicode a b c d :: pieces, rest))
    else none
  | '\\' :: letter :: text =>
    if isShortEscape letter then
      (readPieces text).map (fun (pieces, rest) => (.short letter :: pieces, rest))
    else none
  | c :: text =>
    if c = '\\' then none
    else (readPieces text).map (fun (pieces, rest) => (.plain c :: pieces, rest))
  | [] => none

/-- A quoted string. -/
def readQuoted : List Char → Option (List StringPiece × List Char)
  | '"' :: text => readPieces text
  | _ => none

/-- Digits with an optional point and further digits, or a point and digits. -/
def readMantissa (text : List Char) : Option ((List Char × Option (List Char)) × List Char) :=
  let whole := text.takeWhile Char.isDigit
  match whole.isEmpty, text.dropWhile Char.isDigit with
  | false, '.' :: rest =>
    some ((whole, some (rest.takeWhile Char.isDigit)), rest.dropWhile Char.isDigit)
  | false, rest => some ((whole, none), rest)
  | true, '.' :: rest =>
    let digits := rest.takeWhile Char.isDigit
    if digits.isEmpty then none
    else some (([], some digits), rest.dropWhile Char.isDigit)
  | true, _ => none

/-- A power of ten, if there is a whole one. -/
def readPower : List Char → Option PowerOfTen × List Char
  | [] => (none, [])
  | c :: text =>
    if c = 'e' ∨ c = 'E' then
      let (sign, rest) := SignMark.read text
      let digits := rest.takeWhile Char.isDigit
      if digits.isEmpty then (none, c :: text)
      else (some ⟨c, sign, digits⟩, rest.dropWhile Char.isDigit)
    else (none, c :: text)

/-- A number. -/
def readNumeral (text : List Char) : Option (Numeral × List Char) :=
  let (sign, text) := SignMark.read text
  match readMantissa text with
  | none => none
  | some ((whole, fraction), text) =>
    let (power, rest) := readPower text
    some (⟨sign, whole, fraction, power⟩, rest)

/-! ## §3. Values. -/

/-- A part of the text that has the form of a literal but no value. -/
structure InvalidLiteral where
  text : String
  deriving DecidableEq

/-- The character of a piece. -/
def StringPiece.value : StringPiece → Except InvalidLiteral Char
  | .plain c => .ok c
  | .short letter =>
    match unescape? letter with
    | some c => .ok c
    | none => .error ⟨String.ofList ['\\', letter]⟩
  | .unicode a b c d =>
    match hexValue4? a b c d with
    | some n =>
      if isSurrogate n then .error ⟨String.ofList ['\\', 'u', a, b, c, d]⟩
      else .ok (Char.ofNat n)
    | none => .error ⟨String.ofList ['\\', 'u', a, b, c, d]⟩

/-- The string of its pieces. -/
def piecesValue : List StringPiece → Except InvalidLiteral (List Char)
  | [] => .ok []
  | piece :: rest => do
    let c ← piece.value
    let cs ← piecesValue rest
    return c :: cs

/-- A number without point and power of ten is an integer of 64 bits, any
other a finite float. -/
def numeralValue (n : Numeral) : Except InvalidLiteral Value :=
  if n.isWhole then
    if Int64.minValue.toInt ≤ n.toInt ∧ n.toInt ≤ Int64.maxValue.toInt then
      .ok (.int (Int64.ofInt n.toInt))
    else .error ⟨String.ofList n.text⟩
  else
    match n.toBinary64 with
    | .finite x => .ok (.float (.finite x))
    | _ => .error ⟨String.ofList n.text⟩

/-- The value of a literal. -/
def SpelledLiteral.value : SpelledLiteral → Except InvalidLiteral Value
  | .string pieces => do
    let cs ← piecesValue pieces
    return .str (String.ofList cs)
  | .number n => numeralValue n

/-! ## §4. Values of a whole query. -/

/-- The values of properties, in order. -/
def pairsValue : SpelledProperties → Except InvalidLiteral (List (String × Value))
  | [] => .ok []
  | (key, literal) :: rest => do
    let value ← literal.value
    let pairs ← pairsValue rest
    return (key, value) :: pairs

/-- The property map; of a repeated key the last pair counts. -/
def propertiesValue (properties : SpelledProperties) : Except InvalidLiteral PropertyMap := do
  return PropertyMap.ofList (← pairsValue properties)

/-- A position with its values. -/
def PatternItem.evaluate :
    PatternItem SpelledProperties → Except InvalidLiteral (PatternItem PropertyMap)
  | .node d => do return .node ⟨d.var, d.label, ← propertiesValue d.properties⟩
  | .relationship d => do return .relationship ⟨d.var, d.type, ← propertiesValue d.properties⟩

/-- A chain with its values. -/
def evaluateElement :
    PatternElement SpelledProperties → Except InvalidLiteral (PatternElement PropertyMap)
  | [] => .ok []
  | item :: rest => do
    let item ← item.evaluate
    let rest ← evaluateElement rest
    return item :: rest

/-- A pattern with its values. -/
def evaluatePattern : Pattern SpelledProperties → Except InvalidLiteral GraphPattern
  | [] => .ok []
  | element :: rest => do
    let element ← evaluateElement element
    let rest ← evaluatePattern rest
    return element :: rest

/-- A condition with its value. -/
def evaluateCondition :
    Option (Condition SpelledLiteral) → Except InvalidLiteral (Option (Condition Value))
  | none => .ok none
  | some c => do return some ⟨c.var, c.key, ← c.value.value⟩

/-- A statement with its values. -/
def Statement.evaluate :
    SpelledStatement → Except InvalidLiteral GraphStatement
  | .create pattern => do return .create (← evaluatePattern pattern)
  | .search pattern condition => do
    let pattern ← evaluatePattern pattern
    let condition ← evaluateCondition condition
    return .search pattern condition
  | .project vars distinct => .ok (.project vars distinct)
  | .delete vars => .ok (.delete vars)

/-- Statements with their values. -/
def evaluateStatements :
    List SpelledStatement → Except InvalidLiteral (List GraphStatement)
  | [] => .ok []
  | statement :: rest => do
    let statement ← statement.evaluate
    let rest ← evaluateStatements rest
    return statement :: rest

end PropertyGraph.Query
