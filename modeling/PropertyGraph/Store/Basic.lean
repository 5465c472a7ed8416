/-
  PropertyGraph.Store.Basic
  ─────────────────────────
  **THE INDEXED GRAPH.**

  A store holds nodes and relationships by id, the two counters that hand
  out ids, and three indices that answer the questions of a search without a
  scan:

      byStart  node  ↦ relationships that start there
      byEnd    node  ↦ relationships that end there
      byLabel  label ↦ nodes that carry it

  Every index lists ids in ascending order.  The counters only grow, so that
  no id is handed out twice, until the ids are used up: they have 64 bits,
  and after the last of them a counter starts again at zero (`nextId`).

  Besides creation and deletion there is restoring, which puts entities back
  under ids they already have.  Restoring an id that is in use replaces the
  entity and adds the new index entries to those of the old one; deletion
  follows the indices as they are.
-/
import PropertyGraph.Entity

namespace PropertyGraph

/-- Why an operation on a store was refused. -/
inductive StoreError where
  | nodeNotFound (id : NodeId)
  | relationshipNotFound (id : RelationshipId)
  | danglingStart (id : NodeId)
  | danglingEnd (id : NodeId)
  deriving DecidableEq

namespace StoreError

/-- A relationship was to join a node that is not there. -/
def isDangling : StoreError → Bool
  | .danglingStart _ | .danglingEnd _ => true
  | .nodeNotFound _ | .relationshipNotFound _ => false

/-- The error in words. -/
def message : StoreError → String
  | .nodeNotFound id => s!"Node {id} not found"
  | .relationshipNotFound id => s!"Relationship {id} not found"
  | .danglingStart id => s!"Dangling reference: start node {id} does not exist"
  | .danglingEnd id => s!"Dangling reference: end node {id} does not exist"

end StoreError

/-- A graph with its indices and id counters. -/
structure Store where
  nodes : SortedMap NodeId Node
  relationships : SortedMap RelationshipId Relationship
  /-- Relationships by start node. -/
  byStart : SortedMap NodeId (SortedSet RelationshipId)
  /-- Relationships by end node. -/
  byEnd : SortedMap NodeId (SortedSet RelationshipId)
  /-- Nodes by label. -/
  byLabel : SortedMap Label (SortedSet NodeId)
  /-- The id of the next created node. -/
  nextNodeId : NodeId
  /-- The id of the next created relationship. -/
  nextRelationshipId : RelationshipId

namespace Store

/-- The store before anything was created; ids start at one. -/
def empty : Store := ⟨∅, ∅, ∅, ∅, ∅, 1, 1⟩

instance : Inhabited Store := ⟨empty⟩

/-! ## §1. Questions. -/

/-- Is there a node with this id? -/
def hasNode (store : Store) (id : NodeId) : Bool := store.nodes.contains id

/-- Is there a relationship with this id? -/
def hasRelationship (store : Store) (id : RelationshipId) : Bool :=
  store.relationships.contains id

/-- The node with this id. -/
def node? (store : Store) (id : NodeId) : Option Node := store.nodes.find? id

/-- The relationship with this id. -/
def relationship? (store : Store) (id : RelationshipId) : Option Relationship :=
  store.relationships.find? id

/-- All nodes in the order of their ids. -/
def allNodes (store : Store) : List Node := store.nodes.values

/-- All relationships in the order of their ids. -/
def allRelationships (store : Store) : List Relationship := store.relationships.values

/-- The ids of an index under a key; none without an entry. -/
def idsUnder {κ : Type} [Ord κ] (index : SortedMap κ (SortedSet Nat)) (key : κ) : List Nat :=
  match index.find? key with
  | some ids => ids.toList
  | none => []

/-- Relationships that start at a node, in the order of their ids. -/
def leaving (store : Store) (id : NodeId) : List Relationship :=
  (idsUnder store.byStart id).filterMap store.relationship?

/-- Relationships that end at a node, in the order of their ids. -/
def entering (store : Store) (id : NodeId) : List Relationship :=
  (idsUnder store.byEnd id).filterMap store.relationship?

/-- Nodes that carry a label, in the order of their ids. -/
def labelled (store : Store) (label : Label) : List Node :=
  (idsUnder store.byLabel label).filterMap store.node?

/-- How many nodes there are. -/
def nodeCount (store : Store) : Nat := store.nodes.size

/-- How many relationships there are. -/
def relationshipCount (store : Store) : Nat := store.relationships.size

/-- Is there neither node nor relationship? -/
def isEmpty (store : Store) : Bool := store.nodes.isEmpty && store.relationships.isEmpty

/-! ## §2. Index entries. -/

/-- The index with one more id under a key. -/
def addUnder {κ : Type} [Ord κ] [Std.TransOrd κ] (index : SortedMap κ (SortedSet Nat))
    (key : κ) (id : Nat) : SortedMap κ (SortedSet Nat) :=
  index.insert key (((index.find? key).getD ∅).add id)

/-- The index without one id under a key; the entry stays, even if empty. -/
def removeUnder {κ : Type} [Ord κ] [Std.TransOrd κ] (index : SortedMap κ (SortedSet Nat))
    (key : κ) (id : Nat) : SortedMap κ (SortedSet Nat) :=
  match index.find? key with
  | some ids => index.insert key (ids.remove id)
  | none => index

/-- The index without one id under a key; an entry left empty goes too. -/
def dropUnder {κ : Type} [Ord κ] [Std.TransOrd κ] (index : SortedMap κ (SortedSet Nat))
    (key : κ) (id : Nat) : SortedMap κ (SortedSet Nat) :=
  match index.find? key with
  | some ids =>
    if (ids.remove id).isEmpty then index.erase key else index.insert key (ids.remove id)
  | none => index

/-- Enters a node under each of its labels. -/
def indexLabels (store : Store) (node : Node) : Store :=
  { store with
    byLabel := node.labels.toList.foldl
      (fun index label => addUnder index label node.id) store.byLabel }

/-- Enters a relationship at both ends. -/
def link (store : Store) (relationship : Relationship) : Store :=
  { store with
    byStart := addUnder store.byStart relationship.start relationship.id
    byEnd := addUnder store.byEnd relationship.end relationship.id }

/-- Enters a node in the map and under its labels. -/
def putNode (store : Store) (node : Node) : Store :=
  let store := store.indexLabels node
  { store with nodes := store.nodes.insert node.id node }

/-- Enters a relationship in the map and at both ends. -/
def putRelationship (store : Store) (relationship : Relationship) : Store :=
  let store := store.link relationship
  { store with relationships := store.relationships.insert relationship.id relationship }

/-! ## §3. Creation and change. -/

/-- Creates a node and returns its id. -/
def createNode (store : Store) (labels : List Label) (properties : PropertyMap) :
    NodeId × Store :=
  let id := store.nextNodeId
  (id, ({ store with nextNodeId := nextId id }).putNode ⟨id, SortedSet.ofList labels, properties⟩)

/-- The first end that a relationship would leave dangling. -/
def danglingEnd? (store : Store) (start end_ : NodeId) : Option StoreError :=
  if ¬ store.hasNode start then some (.danglingStart start)
  else if ¬ store.hasNode end_ then some (.danglingEnd end_)
  else none

/-- Creates a relationship between two nodes of the store and returns its id. -/
def createRelationship (store : Store) (type : RelationshipType) (start end_ : NodeId)
    (properties : PropertyMap) : Except StoreError (RelationshipId × Store) :=
  match store.danglingEnd? start end_ with
  | some error => .error error
  | none =>
    let id := store.nextRelationshipId
    .ok (id, ({ store with nextRelationshipId := nextId id }).putRelationship
      ⟨id, type, start, end_, properties⟩)

/-- Replaces the properties of a node and returns the old ones. -/
def setProperties (store : Store) (id : NodeId) (properties : PropertyMap) :
    Except StoreError (PropertyMap × Store) :=
  match store.node? id with
  | none => .error (.nodeNotFound id)
  | some node =>
    let (old, node) := node.replaceProperties properties
    .ok (old, { store with nodes := store.nodes.insert id node })

/-! ## §4. Deletion. -/

/-- Deletes a relationship and its entries at the ends it has. -/
def deleteRelationship (store : Store) (id : RelationshipId) : Option Relationship × Store :=
  match store.relationship? id with
  | none => (none, store)
  | some relationship =>
    (some relationship,
      { store with
        relationships := store.relationships.erase id
        byStart := removeUnder store.byStart relationship.start id
        byEnd := removeUnder store.byEnd relationship.end id })

/-- Deletes each of several relationships. -/
def deleteRelationships (store : Store) (ids : List RelationshipId) : Store :=
  ids.foldl (fun store id => (store.deleteRelationship id).2) store

/-- Deletes a node, after every relationship that is entered at it. -/
def deleteNode (store : Store) (id : NodeId) : Option Node × Store :=
  match store.node? id with
  | none => (none, store)
  | some node =>
    -- the entries of the node itself go as a whole; deleting the relationships mends the
    -- entries at their other ends
    let incident := SortedSet.union ((store.byStart.find? id).getD ∅)
      ((store.byEnd.find? id).getD ∅)
    let store :=
      { store with
        byStart := store.byStart.erase id
        byEnd := store.byEnd.erase id }
    let store := store.deleteRelationships incident.toList
    (some node,
      { store with
        nodes := store.nodes.erase id
        byLabel := node.labels.toList.foldl
          (fun index label => dropUnder index label id) store.byLabel })

/-! ## §5. Restoring. -/

/-- Puts a node back under its own id. -/
def restoreNode (store : Store) (node : Node) : Store :=
  let store := store.putNode node
  { store with nextNodeId := max store.nextNodeId (nextId node.id) }

/-- Puts a relationship back under its own id, between nodes of the store. -/
def restoreRelationship (store : Store) (relationship : Relationship) :
    Except StoreError Store :=
  match store.danglingEnd? relationship.start relationship.end with
  | some error => .error error
  | none =>
    let store := store.putRelationship relationship
    .ok { store with nextRelationshipId := max store.nextRelationshipId (nextId relationship.id) }

/-- Raises the counters to at least the given ids. -/
def reserve (store : Store) (nextNode : NodeId) (nextRelationship : RelationshipId) : Store :=
  { store with
    nextNodeId := max store.nextNodeId nextNode
    nextRelationshipId := max store.nextRelationshipId nextRelationship }

end Store

end PropertyGraph
