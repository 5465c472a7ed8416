/-
  PropertyGraph.Search.Pattern
  ────────────────────────────
  **FINDING A PATTERN IN A STORE.**

  A chain is searched position by position, and at each position every
  candidate is followed to the end before the next one is tried:

      after a relationship   its end node is the only candidate
      a bound variable       the node it is bound to
      a label                the nodes under that label
      otherwise              all nodes
      a relationship         those that start at the node before it

  A candidate is accepted if it has the label or type and the properties
  asked for, satisfies the condition where the condition speaks about this
  variable, and is what its variable is bound to already, if anything.
  Candidates come in the order of their ids, so solutions do too.
-/
import PropertyGraph.Query.Literal
import PropertyGraph.Search.Join
import PropertyGraph.Store.Basic
import PropertyGraph.Value.Equality

namespace PropertyGraph.Search

open PropertyGraph.Query

/-- Where a search stands in a chain. -/
inductive Cursor where
  /-- At the beginning. -/
  | start
  /-- After a node: the next relationship starts there. -/
  | node (id : NodeId)
  /-- After a relationship: the next node is its end. -/
  | relationship («end» : NodeId)
  deriving DecidableEq

/-! ## §1. One position. -/

/-- Has the entity every required property, with a value alike? -/
def hasProperties (required : PropertyMap) (entity : Entity) : Bool :=
  required.entries.all (fun (key, expected) =>
    match entity.property? key with
    | some actual => actual.alike expected
    | none => false)

/-- Does the entity satisfy the condition, if the condition is about `var`? -/
def satisfies (condition : Option (Condition Value)) (var : String) (entity : Entity) : Bool :=
  match condition with
  | none => true
  | some c =>
    c.var != var ||
      (match entity.property? c.key with
        | some actual => actual.alike c.value
        | none => false)

/-- The bindings with `entity` at a position with this variable, if that is
admissible. -/
def bindChecked (condition : Option (Condition Value)) (var : Option String)
    (entity : Entity) (bindings : Bindings) : Option Bindings :=
  match var with
  | none => some bindings
  | some var =>
    if satisfies condition var entity then
      match bindings.find? var with
      | none => some (bindings.bind var entity)
      | some bound => if bound.identity = entity.identity then some bindings else none
    else none

/-- The bindings with `node` at the position of a node descriptor. -/
def acceptNode (condition : Option (Condition Value)) (descriptor : NodePattern PropertyMap)
    (node : Node) (bindings : Bindings) : Option Bindings :=
  if descriptor.label.all node.hasLabel && hasProperties descriptor.properties (.node node) then
    bindChecked condition descriptor.var (.node node) bindings
  else none

/-- The bindings with `relationship` at the position of its descriptor. -/
def acceptRelationship (condition : Option (Condition Value))
    (descriptor : RelationshipPattern PropertyMap) (relationship : Relationship)
    (bindings : Bindings) : Option Bindings :=
  if descriptor.type.all (relationship.type == ·)
      && hasProperties descriptor.properties (.relationship relationship) then
    bindChecked condition descriptor.var (.relationship relationship) bindings
  else none

/-- The node that a variable is bound to. -/
def boundNode? (bindings : Bindings) (var : Option String) : Option NodeId :=
  match var.bind bindings.find? with
  | some (.node bound) => some bound.id
  | _ => none

/-- The nodes to try at a position, in the order of their ids. -/
def nodeCandidates (store : Store) (descriptor : NodePattern PropertyMap) (cursor : Cursor)
    (bindings : Bindings) : List Node :=
  match cursor with
  -- a relationship leads to one node, whatever the descriptor says
  | .relationship end_ => (store.node? end_).toList
  | .start | .node _ =>
    match boundNode? bindings descriptor.var with
    | some id => (store.node? id).toList
    | none =>
      match descriptor.label with
      | some label => store.labelled label
      | none => store.allNodes

/-- The relationships to try at a position: none without a node before it. -/
def relationshipCandidates (store : Store) : Cursor → List Relationship
  | .node id => store.leaving id
  | .start | .relationship _ => []

/-! ## §2. Chains and patterns. -/

/-- All solutions of the rest of a chain that extend `bindings`. -/
def search (store : Store) (condition : Option (Condition Value)) :
    PatternElement PropertyMap → Cursor → Bindings → List Bindings
  | [], _, bindings => [bindings]
  | .node descriptor :: rest, cursor, bindings =>
    (nodeCandidates store descriptor cursor bindings).flatMap (fun node =>
      match acceptNode condition descriptor node bindings with
      | some bindings => search store condition rest (.node node.id) bindings
      | none => [])
  | .relationship descriptor :: rest, cursor, bindings =>
    (relationshipCandidates store cursor).flatMap (fun relationship =>
      match acceptRelationship condition descriptor relationship bindings with
      | some bindings => search store condition rest (.relationship relationship.end) bindings
      | none => [])

/-- All solutions of one chain; a chain without positions has none. -/
def element (store : Store) (condition : Option (Condition Value))
    (element : PatternElement PropertyMap) : List Bindings :=
  if element.isEmpty then [] else search store condition element .start ∅

/-- All solutions of a pattern. -/
def pattern (store : Store) (condition : Option (Condition Value)) (pattern : GraphPattern) :
    List Bindings :=
  joinAll (pattern.map (element store condition))

end PropertyGraph.Search
