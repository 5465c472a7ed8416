/-
  PropertyGraph.Entity
  ────────────────────
  **NODES AND RELATIONSHIPS.**

  A node carries a set of labels, a relationship joins a start node to an
  end node and has one type; both have an id and properties.  Ids of nodes
  and ids of relationships are numbered independently, so the identity of an
  entity is its kind together with its id (`EntityRef`).  Two snapshots of
  an entity with different properties are still the same entity.

  Ids have 64 bits.  They are natural numbers here, and the one place where
  they are computed, the step from an id to the next one, says what becomes
  of the last of them.
-/
import PropertyGraph.Value.Codec

namespace PropertyGraph

/-- The number of a node. -/
abbrev NodeId := Nat

/-- The number of a relationship. -/
abbrev RelationshipId := Nat

/-- The id handed out after this one; after the last id of 64 bits comes
zero. -/
def nextId (id : Nat) : Nat := (id + 1) % UInt64.size

theorem nextId_eq {id : Nat} (h : id + 1 < UInt64.size) : nextId id = id + 1 :=
  Nat.mod_eq_of_lt h

theorem lt_nextId {id : Nat} (h : id + 1 < UInt64.size) : id < nextId id := by
  rw [nextId_eq h]
  exact Nat.lt_succ_self id

theorem nextId_lt (id : Nat) : nextId id < UInt64.size :=
  Nat.mod_lt _ (by decide)

theorem nextId_le (id : Nat) : nextId id ≤ id + 1 := Nat.mod_le _ _

/-- A label of a node. -/
abbrev Label := String

/-- The type of a relationship. -/
abbrev RelationshipType := String

/-! ## §1. Nodes. -/

/-- A node with its labels and properties. -/
structure Node where
  id : NodeId
  labels : SortedSet Label
  properties : PropertyMap

namespace Node

/-- Does the node carry the label? -/
def hasLabel (node : Node) (label : Label) : Bool := node.labels.contains label

/-- The value of a property. -/
def property? (node : Node) (key : String) : Option Value := node.properties.find? key

/-- The same node, whatever the snapshots hold. -/
def same (left right : Node) : Bool := left.id == right.id

/-- The old properties, and the node with others in their place. -/
def replaceProperties (node : Node) (properties : PropertyMap) : PropertyMap × Node :=
  (node.properties, { node with properties })

/-- Members in the order of their names. -/
def toJson (node : Node) : Json :=
  .object
    [("id", .int node.id),
      ("labels", .array (node.labels.toList.map .str)),
      ("properties", node.properties.toJson)]

end Node

/-! ## §2. Relationships. -/

/-- A directed relationship of one type. -/
structure Relationship where
  id : RelationshipId
  type : RelationshipType
  start : NodeId
  «end» : NodeId
  properties : PropertyMap

namespace Relationship

/-- The value of a property. -/
def property? (relationship : Relationship) (key : String) : Option Value :=
  relationship.properties.find? key

/-- Does the relationship start at the node? -/
def startsFrom (relationship : Relationship) (node : NodeId) : Bool :=
  relationship.start == node

/-- Does the relationship end at the node? -/
def endsAt (relationship : Relationship) (node : NodeId) : Bool := relationship.end == node

/-- Does the relationship start or end at the node? -/
def touches (relationship : Relationship) (node : NodeId) : Bool :=
  relationship.startsFrom node || relationship.endsAt node

/-- The same relationship, whatever the snapshots hold. -/
def same (left right : Relationship) : Bool := left.id == right.id

/-- Members in the order of their names. -/
def toJson (relationship : Relationship) : Json :=
  .object
    [("end", .int relationship.end),
      ("id", .int relationship.id),
      ("properties", relationship.properties.toJson),
      ("start", .int relationship.start),
      ("type", .str relationship.type)]

end Relationship

/-! ## §3. Either of them. -/

/-- Which entity: its kind and its id. -/
inductive EntityRef where
  | node (id : NodeId)
  | relationship (id : RelationshipId)
  deriving DecidableEq

/-- A snapshot of a node or a relationship. -/
inductive Entity where
  | node (node : Node)
  | relationship (relationship : Relationship)

namespace Entity

/-- Which entity it is, whatever the snapshot holds. -/
def identity : Entity → EntityRef
  | .node n => .node n.id
  | .relationship r => .relationship r.id

/-- The value of a property. -/
def property? : Entity → String → Option Value
  | .node n, key => n.property? key
  | .relationship r, key => r.property? key

/-- The entity with all its parts. -/
def toJson : Entity → Json
  | .node n => n.toJson
  | .relationship r => r.toJson

end Entity

end PropertyGraph
