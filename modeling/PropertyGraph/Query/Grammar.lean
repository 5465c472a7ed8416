/-
  PropertyGraph.Query.Grammar
  ───────────────────────────
  **THE LANGUAGE OF QUERIES.**

      query        statement (";"? statement)* ";"?
      statement    CREATE pattern
                 | MATCH pattern (WHERE variable "." key "=" literal)?
                 | RETURN DISTINCT? variable ("," variable)*
                 | DELETE variable ("," variable)*
      pattern      element ("," element)*
      element      node (relationship node)*
      node         "(" variable? (":" label)? properties? ")"
      relationship "-[" variable? (":" type)? properties? "]->"
      properties   "{" key ":" literal ("," key ":" literal)* "}"

  Keywords are spelled in any letter case and end where an identifier would
  end.  Blanks may stand between any two tokens.
-/
import PropertyGraph.Query.Literal
import PropertyGraph.Query.Reading

namespace PropertyGraph.Query

open Reading

/-! ## §1. Words. -/

/-- Characters an identifier begins with. -/
def isIdentifierStart (c : Char) : Bool := c.isAlpha || c == '_'

/-- Characters of an identifier. -/
def isIdentifierChar (c : Char) : Bool := c.isAlphanum || c == '_'

/-- An identifier. -/
def scanIdentifier : List Char → Option (String × List Char)
  | c :: text =>
    if isIdentifierStart c then
      some (String.ofList (c :: text.takeWhile isIdentifierChar),
        text.dropWhile isIdentifierChar)
    else none
  | [] => none

/-- Takes a word off the text in any letter case; `word` is in upper case. -/
def scanLetters : List Char → List Char → Option (List Char)
  | [], text => some text
  | letter :: word, c :: text => if c.toUpper = letter then scanLetters word text else none
  | _ :: _, [] => none

/-- A keyword; no character of an identifier follows it. -/
def scanKeyword (word : String) (text : List Char) : Option (Unit × List Char) :=
  match scanLetters word.toList text with
  | none => none
  | some [] => some ((), [])
  | some (c :: rest) => if isIdentifierChar c then none else some ((), c :: rest)

/-- A variable. -/
def variableName : Reading String := token .variable scanIdentifier

/-- A property key. -/
def propertyKey : Reading String := token .propertyKey scanIdentifier

/-- A keyword under the name of its rule. -/
def keyword (name : Rule) (word : String) : Reading Unit := token name (scanKeyword word)

/-! ## §2. Literals and properties. -/

/-- A string or a number. -/
def literal : Reading SpelledLiteral :=
  (SpelledLiteral.string <$> token .string readQuoted)
    <|> (SpelledLiteral.number <$> token .number readNumeral)

/-- One key with its literal. -/
def property : Reading (String × SpelledLiteral) := rule .property do
  let key ← propertyKey
  symbol ":"
  let value ← literal
  return (key, value)

/-- Properties in braces, at least one. -/
def properties : Reading SpelledProperties := rule .properties do
  symbol "\x7b"
  let pairs ← separated property (symbol ",")
  symbol "\x7d"
  return pairs

/-! ## §3. Patterns. -/

/-- A colon and a name. -/
def classifier (name : Rule) : Reading String := do
  symbol ":"
  token name scanIdentifier

/-- A node descriptor. -/
def nodePattern : Reading (NodePattern SpelledProperties) := rule .nodePattern do
  symbol "("
  let var ← optional variableName
  let label ← optional (classifier .label)
  let properties ← optional properties
  symbol ")"
  return ⟨var, label, properties.getD []⟩

/-- A relationship descriptor. -/
def relationshipPattern : Reading (RelationshipPattern SpelledProperties) :=
  rule .relationshipPattern do
    symbol "-["
    let var ← optional variableName
    let type ← optional (classifier .relationshipType)
    let properties ← optional properties
    symbol "]->"
    return ⟨var, type, properties.getD []⟩

/-- A relationship and the node it leads to. -/
def step : Reading (PatternElement SpelledProperties) := do
  let relationship ← relationshipPattern
  let node ← nodePattern
  return [.relationship relationship, .node node]

/-- A chain of nodes and relationships. -/
def patternElement : Reading (PatternElement SpelledProperties) := rule .patternElement do
  let first ← nodePattern
  let steps ← many step
  return .node first :: steps.flatten

/-- One or more chains. -/
def pattern : Reading (Pattern SpelledProperties) :=
  rule .pattern (separated patternElement (symbol ","))

/-! ## §4. Statements. -/

/-- One or more variables. -/
def variableList : Reading (List String) :=
  rule .variableList (separated variableName (symbol ","))

/-- The condition of a search. -/
def whereClause : Reading (Condition SpelledLiteral) := rule .whereClause do
  keyword .whereKeyword "WHERE"
  let var ← variableName
  symbol "."
  let key ← propertyKey
  symbol "="
  let value ← literal
  return ⟨var, key, value⟩

/-- CREATE and its pattern. -/
def createStatement : Reading SpelledStatement := rule .createStatement do
  keyword .createKeyword "CREATE"
  return .create (← pattern)

/-- MATCH, its pattern and its condition. -/
def matchStatement : Reading SpelledStatement := rule .matchStatement do
  keyword .matchKeyword "MATCH"
  let pattern ← pattern
  let condition ← optional whereClause
  return .search pattern condition

/-- RETURN and its variables. -/
def returnStatement : Reading SpelledStatement := rule .returnStatement do
  keyword .returnKeyword "RETURN"
  let distinct ← optional (keyword .distinct "DISTINCT")
  let vars ← variableList
  return .project vars distinct.isSome

/-- DELETE and its variables. -/
def deleteStatement : Reading SpelledStatement := rule .deleteStatement do
  keyword .deleteKeyword "DELETE"
  return .delete (← variableList)

/-- Any statement. -/
def statement : Reading SpelledStatement :=
  createStatement <|> matchStatement <|> returnStatement <|> deleteStatement

/-- A further statement, perhaps after a semicolon. -/
def furtherStatement : Reading SpelledStatement := do
  let _ ← optional (symbol ";")
  statement

/-- A whole text. -/
def query : Reading (List SpelledStatement) := rule .query do
  blanks
  let first ← statement
  let rest ← many furtherStatement
  let _ ← optional (symbol ";")
  endOfInput
  return first :: rest

/-! ## §5. Reading a query. -/

/-- Why a text is no query. -/
inductive QueryError where
  /-- The text is outside the grammar. -/
  | outsideGrammar (error : SyntaxError)
  /-- A literal has no value. -/
  | invalidLiteral (literal : InvalidLiteral)
  deriving DecidableEq

/-- The error in words. -/
def QueryError.message : QueryError → String
  | .outsideGrammar error => error.message
  | .invalidLiteral literal => "Invalid literal: " ++ literal.text

/-- The statements of a text as spelled. -/
def readStatements (text : String) : Except SyntaxError (List SpelledStatement) :=
  let chars := text.toList
  match query.read chars with
  | some (statements, _) => .ok statements
  | none =>
    let failures := query.trace chars (Failures.start chars.length)
    .error (SyntaxError.at_ (chars.take (chars.length - failures.left)) failures.rules)

/-- The statements of a text with their values. -/
def parse (text : String) : Except QueryError (List GraphStatement) :=
  match readStatements text with
  | .error error => .error (.outsideGrammar error)
  | .ok statements =>
    match evaluateStatements statements with
    | .error literal => .error (.invalidLiteral literal)
    | .ok statements => .ok statements

end PropertyGraph.Query
