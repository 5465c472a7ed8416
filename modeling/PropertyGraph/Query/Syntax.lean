/-
  PropertyGraph.Query.Syntax
  ──────────────────────────
  **STATEMENTS.**

  A query is a list of statements: CREATE and MATCH with a pattern, RETURN
  and DELETE with a list of variables.  A pattern is a list of elements, each
  a chain of node and relationship descriptors.  A chain from a query text
  alternates between the two and begins and ends with a node; the type
  admits any chain, for statements that are put together by hand.

  Descriptors are generic in what holds their properties (`π`) and
  conditions in their literal (`ν`): a text is read with its literals as
  spelled, and they get their values afterwards.
-/
import PropertyGraph.Entity

namespace PropertyGraph.Query

/-! ## §1. Patterns. -/

/-- A node descriptor: `(var:Label {key: value})`. -/
structure NodePattern (π : Type) where
  var : Option String
  label : Option Label
  properties : π

/-- A relationship descriptor: `-[var:TYPE {key: value}]->`. -/
structure RelationshipPattern (π : Type) where
  var : Option String
  type : Option RelationshipType
  properties : π

/-- One position of a chain. -/
inductive PatternItem (π : Type) where
  | node (descriptor : NodePattern π)
  | relationship (descriptor : RelationshipPattern π)

/-- The variable of a position, if it has one. -/
def PatternItem.var {π : Type} : PatternItem π → Option String
  | .node descriptor => descriptor.var
  | .relationship descriptor => descriptor.var

/-- A chain of positions. -/
abbrev PatternElement (π : Type) := List (PatternItem π)

/-- Several chains; a variable means the same entity in all of them. -/
abbrev Pattern (π : Type) := List (PatternElement π)

/-- Every variable of a pattern in order, repeated ones too. -/
def Pattern.vars {π : Type} (pattern : Pattern π) : List String :=
  pattern.flatMap (fun element => element.filterMap PatternItem.var)

/-! ## §2. Statements. -/

/-- The condition of WHERE: `var.key = value`. -/
structure Condition (ν : Type) where
  var : String
  key : String
  value : ν

/-- One statement. -/
inductive Statement (π ν : Type) where
  /-- CREATE: make the entities of a pattern. -/
  | create (pattern : Pattern π)
  /-- MATCH with its WHERE: find the entities of a pattern. -/
  | search (pattern : Pattern π) (condition : Option (Condition ν))
  /-- RETURN: show variables of the last search. -/
  | project (vars : List String) (distinct : Bool)
  /-- DELETE: remove what variables of the last search are bound to. -/
  | delete (vars : List String)

namespace Statement

variable {π ν : Type}

/-- The word a statement begins with. -/
def keyword : Statement π ν → String
  | .create _ => "CREATE"
  | .search _ _ => "MATCH"
  | .project _ _ => "RETURN"
  | .delete _ => "DELETE"

/-- Statements that never change a store. -/
def isReadOnly : Statement π ν → Bool
  | .search _ _ | .project _ _ => true
  | .create _ | .delete _ => false

end Statement

end PropertyGraph.Query
