/-
  PropertyGraph.Session.Creation
  ──────────────────────────────
  **MAKING THE ENTITIES OF A PATTERN.**

  CREATE checks its whole pattern before it makes anything: every chain
  begins with a node, and every relationship has a type and a node after it.
  Then each node descriptor makes a node, unless its variable already stands
  for one made by this statement, and each relationship descriptor joins the
  node before it to the node after it.
-/
import PropertyGraph.Query.Literal
import PropertyGraph.Session.Outcome
import PropertyGraph.Store.Basic

namespace PropertyGraph

open PropertyGraph.Query

/-! ## §1. The check. -/

/-- What is wrong with a pattern to be made. -/
inductive CreationError where
  /-- A chain begins with a relationship, or is empty. -/
  | startsWithoutNode
  /-- A relationship has no type. -/
  | missingType
  /-- No node follows a relationship. -/
  | missingEnd
  /-- A relationship without type or without a node on either side was come
  upon while entities were being made. -/
  | misplacedRelationship
  deriving DecidableEq

/-- The error in words. -/
def CreationError.message : CreationError → String
  | .startsWithoutNode => "CREATE pattern element must start with a node"
  | .missingType => "CREATE relationship needs a type"
  | .missingEnd => "CREATE relationship must be followed by a node"
  | .misplacedRelationship =>
    "relationship must sit between two node patterns and name a type"

namespace Creation

/-- The first fault among the relationships of a chain. -/
def stepsError? : PatternElement PropertyMap → Option CreationError
  | [] => none
  | .node _ :: rest => stepsError? rest
  | .relationship descriptor :: rest =>
    if descriptor.type.isNone then some .missingType
    else
      match rest with
      | .node _ :: _ => stepsError? rest
      | _ => some .missingEnd

/-- The first fault of a chain. -/
def elementError? (element : PatternElement PropertyMap) : Option CreationError :=
  match element with
  | .node _ :: _ => stepsError? element
  | _ => some .startsWithoutNode

/-- The first fault of a pattern. -/
def error? (pattern : GraphPattern) : Option CreationError :=
  pattern.findSome? elementError?

end Creation

/-! ## §2. The making. -/

/-- What has been made so far by one statement. -/
structure Creation where
  store : Store
  /-- The nodes that variables of the statement stand for. -/
  vars : SortedMap String NodeId
  summary : Summary

/-- Why the making stopped. -/
inductive CreationFault where
  | pattern (error : CreationError)
  | store (error : StoreError)
  deriving DecidableEq

namespace Creation

/-- Nothing made yet. -/
def start (store : Store) : Creation := ⟨store, ∅, ⟨0, 0⟩⟩

/-- The node a variable stands for. -/
def bound? (creation : Creation) (var : Option String) : Option NodeId :=
  var.bind creation.vars.find?

/-- The node of a descriptor: the one its variable stands for, or a new one. -/
def resolve (creation : Creation) (descriptor : NodePattern PropertyMap) : NodeId × Creation :=
  match creation.bound? descriptor.var with
  | some id => (id, creation)
  | none =>
    let (id, store) := creation.store.createNode descriptor.label.toList descriptor.properties
    (id,
      { store
        vars := match descriptor.var with
          | some var => creation.vars.insert var id
          | none => creation.vars
        summary := { creation.summary with nodes := creation.summary.nodes + 1 } })

/-- A new relationship between two nodes. -/
def connect (creation : Creation) (type : RelationshipType) (start end_ : NodeId)
    (properties : PropertyMap) : Except StoreError Creation :=
  match creation.store.createRelationship type start end_ properties with
  | .error error => .error error
  | .ok (_, store) =>
    .ok { creation with
      store
      summary := { creation.summary with relationships := creation.summary.relationships + 1 } }

/-- Makes the rest of a chain after the node `previous`.  What was made stays
made even if the making stops. -/
def steps (creation : Creation) (previous : Option NodeId) :
    PatternElement PropertyMap → Creation × Option CreationFault
  | [] => (creation, none)
  | .node descriptor :: rest =>
    let (id, creation) := creation.resolve descriptor
    steps creation (some id) rest
  | .relationship descriptor :: .node next :: rest =>
    match previous, descriptor.type with
    | some start, some type =>
      -- the end node is made first, so it has its id before the relationship has one
      let (id, creation) := creation.resolve next
      match creation.connect type start id descriptor.properties with
      | .error error => (creation, some (.store error))
      | .ok creation => steps creation (some id) rest
    | _, _ => (creation, some (.pattern .misplacedRelationship))
  | .relationship _ :: _ => (creation, some (.pattern .misplacedRelationship))

/-- Makes the chains of a pattern, one after the other. -/
def elements (creation : Creation) : GraphPattern → Creation × Option CreationFault
  | [] => (creation, none)
  | element :: rest =>
    match creation.steps none element with
    | (creation, none) => creation.elements rest
    | (creation, some fault) => (creation, some fault)

end Creation

end PropertyGraph
