/-
  PropertyGraph.Proofs.Query.Spelling
  ───────────────────────────────────
  **WHICH STATEMENTS A TEXT SPELLS.**

  The language of queries without a reader for it: nothing here is tried in
  order, nothing is taken as far as it goes, and nothing is backed out of.

    * A text is a layout of tokens (`Laid`): blanks may stand around each,
      and a word may not run on into the next character.
    * Tokens are put together by a grammar (`Spelling`), one rule for each
      kind of phrase.
    * Literals have values (`Denotes`), and of several pairs with one key the
      last one counts.

  `Spells text statements` puts the three together.  That the reader of
  queries gives exactly this is proved in `PropertyGraph.Proofs.Query.Language`.
-/
import Mathlib.Data.List.Forall2
import PropertyGraph.Query.Grammar
import PropertyGraph.Proofs.Text.Run

namespace PropertyGraph.Query

open PropertyGraph.Text
open Reading (isBlank)

/-! ## §1. Tokens. -/

/-- The words with a meaning of their own. -/
inductive Keyword where
  | create
  | search
  | condition
  | project
  | delete
  | distinct
  deriving DecidableEq

/-- A keyword in upper case. -/
def Keyword.word : Keyword → String
  | .create => "CREATE"
  | .search => "MATCH"
  | .condition => "WHERE"
  | .project => "RETURN"
  | .delete => "DELETE"
  | .distinct => "DISTINCT"

/-- Punctuation; an arrow has a mark for its tail and one for its head. -/
inductive Mark where
  | openParen
  | closeParen
  | openArrow
  | closeArrow
  | openBrace
  | closeBrace
  | comma
  | colon
  | dot
  | equals
  | semicolon
  deriving DecidableEq

/-- A mark as written. -/
def Mark.text : Mark → String
  | .openParen => "("
  | .closeParen => ")"
  | .openArrow => "-["
  | .closeArrow => "]->"
  | .openBrace => "\x7b"
  | .closeBrace => "\x7d"
  | .comma => ","
  | .colon => ":"
  | .dot => "."
  | .equals => "="
  | .semicolon => ";"

/-- What a text is made of. -/
inductive Token where
  | keyword (keyword : Keyword)
  | name (name : String)
  | mark (mark : Mark)
  | literal (literal : SpelledLiteral)

/-- A letter or an underscore, and then letters, digits and underscores. -/
def IsName (chars : List Char) : Prop :=
  ∃ c rest, chars = c :: rest ∧ isIdentifierStart c = true
    ∧ ∀ d ∈ rest, isIdentifierChar d = true

/-- A piece of a string as written. -/
def StringPiece.text : StringPiece → List Char
  | .plain c => [c]
  | .short letter => ['\\', letter]
  | .unicode a b c d => ['\\', 'u', a, b, c, d]

/-- The letters after a backslash and the characters they stand for. -/
def shortEscapes : List (Char × Char) :=
  [('"', '"'), ('\\', '\\'), ('/', '/'), ('b', '\x08'), ('f', '\x0c'), ('n', '\n'),
    ('r', '\r'), ('t', '\t')]

/-- Any character but the quote and the backslash stands for itself. -/
def StringPiece.Legal : StringPiece → Prop
  | .plain c => c ≠ '"' ∧ c ≠ '\\'
  | .short letter => ∃ c, (letter, c) ∈ shortEscapes
  | .unicode a b c d =>
    isHexDigit a = true ∧ isHexDigit b = true ∧ isHexDigit c = true ∧ isHexDigit d = true

/-- The parts of a number are digits, and there are digits on one side of the
point at least. -/
structure LegalNumeral (n : Numeral) : Prop where
  whole : ∀ c ∈ n.whole, c.isDigit = true
  fraction : ∀ digits, n.fraction = some digits → ∀ c ∈ digits, c.isDigit = true
  some_digit : n.whole = [] → ∃ c digits, n.fraction = some (c :: digits)
  power : ∀ p, n.power = some p →
    (p.mark = 'e' ∨ p.mark = 'E') ∧ p.digits ≠ [] ∧ ∀ c ∈ p.digits, c.isDigit = true

/-- The characters of a literal. -/
def SpelledLiteral.SpelledBy : SpelledLiteral → List Char → Prop
  | .string pieces, chars =>
    (∀ piece ∈ pieces, piece.Legal) ∧ chars = '"' :: (pieces.flatMap StringPiece.text ++ ['"'])
  | .number n, chars => LegalNumeral n ∧ chars = n.text

/-- The characters of a token.  Keywords may be written in any case. -/
def Token.SpelledBy : Token → List Char → Prop
  | .keyword k, chars => chars.map Char.toUpper = k.word.toList
  | .name s, chars => IsName chars ∧ s = String.ofList chars
  | .mark m, chars => chars = m.text.toList
  | .literal l, chars => l.SpelledBy chars

/-- Keywords and names. -/
def Token.IsWord : Token → Prop
  | .keyword _ | .name _ => True
  | .mark _ | .literal _ => False

/-- The text is the tokens, with any blanks after each, and then the rest.  No
character of a name follows directly on a word. -/
inductive Laid : List Token → List Char → List Char → Prop where
  | nil {rest : List Char} : Laid [] rest rest
  | cons {token : Token} {tokens : List Token} {chars gap text rest : List Char} :
    token.SpelledBy chars →
    (token.IsWord → Stops isIdentifierChar (gap ++ text)) →
    (∀ c ∈ gap, isBlank c = true) →
    Laid tokens text rest →
    Laid (token :: tokens) (chars ++ (gap ++ text)) rest

/-! ## §2. Phrases. -/

/-- Which tokens spell a value. -/
abbrev Spelling (α : Type) := α → List Token → Prop

namespace Spelling

variable {α : Type}

/-- A phrase that may be left out. -/
def optional (phrase : Spelling α) : Spelling (Option α)
  | none, tokens => tokens = []
  | some a, tokens => phrase a tokens

/-- A phrase behind a token of its own. -/
def behind (token : Token) (phrase : Spelling α) : Spelling α :=
  fun a tokens => ∃ rest, phrase a rest ∧ tokens = token :: rest

/-- Any number of phrases. -/
inductive Many (phrase : Spelling α) : Spelling (List α) where
  | nil : Many phrase [] []
  | cons {a : α} {items : List α} {first rest : List Token} :
    phrase a first → Many phrase items rest → Many phrase (a :: items) (first ++ rest)

/-- One phrase or more, with commas between. -/
def commaList (phrase : Spelling α) : Spelling (List α) :=
  fun items tokens => ∃ a others first rest, items = a :: others ∧ phrase a first
    ∧ Many (behind (.mark .comma) phrase) others rest ∧ tokens = first ++ rest

/-- A variable, a label, a relationship type or a key. -/
def name : Spelling String := fun s tokens => tokens = [.name s]

/-- A key and its literal. -/
def property : Spelling (String × SpelledLiteral) :=
  fun p tokens => tokens = [.name p.1, .mark .colon, .literal p.2]

/-- Braces around one pair or more. -/
def braces : Spelling SpelledProperties :=
  fun pairs tokens => ∃ inner, commaList property pairs inner
    ∧ tokens = .mark .openBrace :: (inner ++ [.mark .closeBrace])

/-- No pairs are spelled by nothing, not by empty braces. -/
def properties : Spelling SpelledProperties :=
  fun pairs tokens => (pairs = [] ∧ tokens = []) ∨ braces pairs tokens

/-- What stands between the brackets of a descriptor. -/
def details (var classifier : Option String) (pairs : SpelledProperties) (tokens : List Token) :
    Prop :=
  ∃ v c p, optional name var v ∧ optional (behind (.mark .colon) name) classifier c
    ∧ properties pairs p ∧ tokens = v ++ (c ++ p)

/-- A node descriptor. -/
def node : Spelling (NodePattern SpelledProperties) :=
  fun d tokens => ∃ inner, details d.var d.label d.properties inner
    ∧ tokens = .mark .openParen :: (inner ++ [.mark .closeParen])

/-- A relationship descriptor. -/
def relationship : Spelling (RelationshipPattern SpelledProperties) :=
  fun d tokens => ∃ inner, details d.var d.type d.properties inner
    ∧ tokens = .mark .openArrow :: (inner ++ [.mark .closeArrow])

/-- A relationship and the node it leads to. -/
def step : Spelling (PatternElement SpelledProperties) :=
  fun items tokens => ∃ r d first rest, items = [.relationship r, .node d]
    ∧ relationship r first ∧ node d rest ∧ tokens = first ++ rest

/-- A node and any number of steps. -/
def element : Spelling (PatternElement SpelledProperties) :=
  fun items tokens => ∃ d steps first rest, items = .node d :: steps.flatten
    ∧ node d first ∧ Many step steps rest ∧ tokens = first ++ rest

/-- One element or more. -/
def pattern : Spelling (Pattern SpelledProperties) := commaList element

/-- `variable.key = literal` behind WHERE. -/
def condition : Spelling (Condition SpelledLiteral) :=
  fun c tokens => tokens = [.keyword .condition, .name c.var, .mark .dot, .name c.key,
    .mark .equals, .literal c.value]

/-- Does the name spell the keyword? -/
def Names (k : Keyword) (name : String) : Prop := name.toList.map Char.toUpper = k.word.toList

/-- One statement.  Directly behind RETURN the word DISTINCT is the keyword:
as the first variable it needs the keyword in front of it. -/
def statement : Spelling SpelledStatement
  | .create p, tokens => behind (.keyword .create) pattern p tokens
  | .search p c, tokens => ∃ first rest, pattern p first ∧ optional condition c rest
    ∧ tokens = .keyword .search :: (first ++ rest)
  | .project vars true, tokens =>
    behind (.keyword .project) (behind (.keyword .distinct) (commaList name)) vars tokens
  | .project vars false, tokens =>
    behind (.keyword .project) (commaList name) vars tokens
      ∧ ∀ first, vars.head? = some first → ¬ Names .distinct first
  | .delete vars, tokens => behind (.keyword .delete) (commaList name) vars tokens

/-- A statement after another one, perhaps with a semicolon between. -/
def further : Spelling SpelledStatement :=
  fun s tokens => statement s tokens ∨ behind (.mark .semicolon) statement s tokens

/-- One statement or more, perhaps with a semicolon at the end. -/
def query : Spelling (List SpelledStatement) :=
  fun statements tokens => ∃ s others first rest, statements = s :: others
    ∧ statement s first ∧ Many further others rest
    ∧ (tokens = first ++ rest ∨ tokens = first ++ (rest ++ [.mark .semicolon]))

end Spelling

/-! ## §3. Values. -/

/-- The character a piece of a string stands for.  Four hexadecimal digits
stand for the character with that code, and surrogates are no characters. -/
def StringPiece.Denotes : StringPiece → Char → Prop
  | .plain c, x => x = c
  | .short letter, x => (letter, x) ∈ shortEscapes
  | .unicode a b c d, x => hexValue4? a b c d = some x.toNat

/-- The value of a literal: a string, an integer of 64 bits, or with a point or
a power of ten a finite float. -/
def SpelledLiteral.Denotes : SpelledLiteral → Value → Prop
  | .string pieces, v => ∃ s : String, v = .str s ∧ List.Forall₂ StringPiece.Denotes pieces s.toList
  | .number n, v =>
    (n.isWhole = true ∧ ∃ i : Int64, v = .int i ∧ i.toInt = n.toInt)
      ∨ (n.isWhole = false ∧ ∃ x, v = .float (.finite x) ∧ n.toBinary64 = .finite x)

/-- The last pair with the key is this one. -/
def LastUnder {α : Type} (key : String) (a : α) (pairs : List (String × α)) : Prop :=
  ∃ before after, pairs = before ++ (key, a) :: after ∧ ∀ pair ∈ after, pair.1 ≠ key

/-- The properties that pairs stand for.  Every literal has a value, and under
each key stands the value of its last literal. -/
structure PropertiesDenote (pairs : SpelledProperties) (properties : PropertyMap) : Prop where
  valued : ∀ pair ∈ pairs, ∃ v, pair.2.Denotes v
  last : ∀ key v, properties.find? key = some v ↔
    ∃ literal, LastUnder key literal pairs ∧ literal.Denotes v

/-- A position and its values. -/
def PatternItem.Denotes : PatternItem SpelledProperties → PatternItem PropertyMap → Prop
  | .node d, .node e =>
    e.var = d.var ∧ e.label = d.label ∧ PropertiesDenote d.properties e.properties
  | .relationship d, .relationship e =>
    e.var = d.var ∧ e.type = d.type ∧ PropertiesDenote d.properties e.properties
  | .node _, .relationship _ | .relationship _, .node _ => False

/-- A pattern and its values. -/
def PatternDenotes : Pattern SpelledProperties → GraphPattern → Prop :=
  List.Forall₂ (List.Forall₂ PatternItem.Denotes)

/-- A condition and its value. -/
def ConditionDenotes : Option (Condition SpelledLiteral) → Option (Condition Value) → Prop
  | none, none => True
  | some c, some d => d.var = c.var ∧ d.key = c.key ∧ c.value.Denotes d.value
  | none, some _ | some _, none => False

/-- A statement and its values. -/
def Statement.Denotes : SpelledStatement → GraphStatement → Prop
  | .create p, s => ∃ q, s = .create q ∧ PatternDenotes p q
  | .search p c, s => ∃ q d, s = .search q d ∧ PatternDenotes p q ∧ ConditionDenotes c d
  | .project vars distinct, s => s = .project vars distinct
  | .delete vars, s => s = .delete vars

/-! ## §4. Texts. -/

/-- The text is a layout of the tokens of the statements, blanks in front
allowed. -/
def SpelledAs (text : List Char) (statements : List SpelledStatement) : Prop :=
  ∃ gap rest tokens, text = gap ++ rest ∧ (∀ c ∈ gap, isBlank c = true)
    ∧ Laid tokens rest [] ∧ Spelling.query statements tokens

/-- The text spells the statements. -/
def Spells (text : String) (statements : List GraphStatement) : Prop :=
  ∃ spelled, SpelledAs text.toList spelled ∧ List.Forall₂ Statement.Denotes spelled statements

end PropertyGraph.Query
