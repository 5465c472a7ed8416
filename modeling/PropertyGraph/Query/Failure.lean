/-
  PropertyGraph.Query.Failure
  ───────────────────────────
  **WHERE A QUERY TEXT WENT WRONG.**

  A text outside the grammar is reported at the furthest place that any rule
  was tried at, with the rules that could have gone on from there.  While a
  reading runs, `Failures` keeps that place and the rules that failed there.

  A rule that fails takes the place of the failures inside it, with one
  exception: if exactly one failure came up inside it at its own place, that
  one says more and stays (`Failures.afterRule`).
-/

namespace PropertyGraph.Query

/-! ## §1. The rules. -/

/-- The named rules of the grammar, in the order in which messages list them. -/
inductive Rule where
  | endOfInput
  | query
  | createStatement
  | matchStatement
  | returnStatement
  | deleteStatement
  | whereClause
  | pattern
  | patternElement
  | nodePattern
  | relationshipPattern
  | properties
  | property
  | variableList
  | number
  | string
  | variable
  | label
  | relationshipType
  | propertyKey
  | createKeyword
  | matchKeyword
  | whereKeyword
  | returnKeyword
  | deleteKeyword
  | distinct
  deriving DecidableEq

namespace Rule

/-- All rules in order. -/
def all : List Rule :=
  [.endOfInput, .query, .createStatement, .matchStatement, .returnStatement, .deleteStatement,
    .whereClause, .pattern, .patternElement, .nodePattern, .relationshipPattern, .properties,
    .property, .variableList, .number, .string, .variable, .label, .relationshipType,
    .propertyKey, .createKeyword, .matchKeyword, .whereKeyword, .returnKeyword, .deleteKeyword,
    .distinct]

/-- The name of a rule in messages. -/
def name : Rule → String
  | .endOfInput => "EOI"
  | .query => "query"
  | .createStatement => "create_stmt"
  | .matchStatement => "match_stmt"
  | .returnStatement => "return_stmt"
  | .deleteStatement => "delete_stmt"
  | .whereClause => "where_clause"
  | .pattern => "pattern"
  | .patternElement => "pattern_element"
  | .nodePattern => "node_pattern"
  | .relationshipPattern => "relationship_pattern"
  | .properties => "properties"
  | .property => "property"
  | .variableList => "variable_list"
  | .number => "number"
  | .string => "string"
  | .variable => "variable"
  | .label => "label"
  | .relationshipType => "rel_type"
  | .propertyKey => "property_key"
  | .createKeyword => "kw_create"
  | .matchKeyword => "kw_match"
  | .whereKeyword => "kw_where"
  | .returnKeyword => "kw_return"
  | .deleteKeyword => "kw_delete"
  | .distinct => "distinct"

end Rule

/-! ## §2. The furthest place. -/

/-- The furthest place tried so far, as the number of characters left there,
and the rules that failed there. -/
structure Failures where
  left : Nat
  rules : List Rule
  deriving DecidableEq

namespace Failures

/-- Nothing tried yet on a text of this length. -/
def start (length : Nat) : Failures := ⟨length, []⟩

/-- How many rules have failed at a place. -/
def countAt (failures : Failures) (left : Nat) : Nat :=
  if failures.left = left then failures.rules.length else 0

/-- The record after `rule`, tried at `left`, has failed: `before` is the
record when it was tried, `inside` the record after the tries inside it. -/
def afterRule (rule : Rule) (left : Nat) (before inside : Failures) : Failures :=
  -- a single failure inside, at the place of the rule itself, says more than the rule
  if inside.countAt left = before.countAt left + 1 then inside
  -- several failures inside at its place: the rule stands for them
  else if left = inside.left then
    ⟨left, inside.rules.take (before.countAt left) ++ [rule]⟩
  -- the rule was tried further on than any other so far
  else if left < inside.left then ⟨left, [rule]⟩
  -- another one was tried further on
  else inside

end Failures

/-! ## §3. Messages. -/

/-- The rules expected at a place of a text; lines and columns count from one. -/
structure SyntaxError where
  line : Nat
  column : Nat
  expected : List Rule
  deriving DecidableEq

/-- A choice in words: `a`, `a or b`, `a, b, or c`. -/
def choice : List String → String
  | [] => ""
  | [a] => a
  | [a, b] => a ++ " or " ++ b
  | names => ", ".intercalate names.dropLast ++ ", or " ++ (names.getLast?.getD "")

namespace SyntaxError

/-- The error at a place after `consumed`.  A line feed ends a line. -/
def at_ (consumed : List Char) (expected : List Rule) : SyntaxError :=
  ⟨consumed.count '\n' + 1, (consumed.reverse.takeWhile (· ≠ '\n')).length + 1,
    Rule.all.filter (expected.contains ·)⟩

/-- The error in words. -/
def message (error : SyntaxError) : String :=
  s!"Syntax error at line {error.line}, column {error.column}: expected "
    ++ choice (error.expected.map Rule.name)

end SyntaxError

end PropertyGraph.Query
