/-
  PropertyGraph.Proofs.Store.Effects
  ──────────────────────────────────
  **WHAT EACH OPERATION DOES TO A STORE.**

  A store is seen through five questions: which node and which relationship
  stands under an id, and which ids the three indices list under a key.
  This module answers them for the store after each operation, in terms of
  the store before.  Everything else about operations follows from these
  answers; no later module opens an operation.

  Deletion of a node is the one that takes several steps.  `ListedAt store
  node id` says that the relationship `id` is entered at the node, at either
  end; exactly those relationships go with the node, whether or not they
  really touch it.
-/
import PropertyGraph.Proofs.Store.Index

namespace PropertyGraph

theorem Node.hasLabel_eq_true_iff {node : Node} {label : Label} :
    node.hasLabel label = true ↔ label ∈ node.labels.toList := by
  rw [Node.hasLabel, SortedMap.contains_eq_true_iff, SortedSet.mem_toList_iff]
  exact ⟨fun ⟨_, h⟩ => h, fun h => ⟨(), h⟩⟩

namespace Store

theorem hasNode_eq_true_iff {store : Store} {id : NodeId} :
    store.hasNode id = true ↔ ∃ node, store.node? id = some node :=
  SortedMap.contains_eq_true_iff

/-! ## §1. Entering a node or a relationship. -/

theorem node?_putNode {store : Store} {node : Node} {id : NodeId} :
    (store.putNode node).node? id = if id = node.id then some node else store.node? id :=
  SortedMap.find?_insert_eq store.nodes node.id id node

theorem mem_byLabel_putNode {store : Store} {node : Node} {id : NodeId} {label : Label} :
    id ∈ idsUnder (store.putNode node).byLabel label
      ↔ (node.hasLabel label = true ∧ id = node.id) ∨ id ∈ idsUnder store.byLabel label := by
  rw [Node.hasLabel_eq_true_iff]
  exact mem_idsUnder_addLabels

theorem relationship?_putRelationship {store : Store} {relationship : Relationship}
    {id : RelationshipId} :
    (store.putRelationship relationship).relationship? id
      = if id = relationship.id then some relationship else store.relationship? id :=
  SortedMap.find?_insert_eq store.relationships relationship.id id relationship

theorem mem_byStart_putRelationship {store : Store} {relationship : Relationship}
    {id : RelationshipId} {key : NodeId} :
    id ∈ idsUnder (store.putRelationship relationship).byStart key
      ↔ (key = relationship.start ∧ id = relationship.id) ∨ id ∈ idsUnder store.byStart key :=
  mem_idsUnder_addUnder

theorem mem_byEnd_putRelationship {store : Store} {relationship : Relationship}
    {id : RelationshipId} {key : NodeId} :
    id ∈ idsUnder (store.putRelationship relationship).byEnd key
      ↔ (key = relationship.end ∧ id = relationship.id) ∨ id ∈ idsUnder store.byEnd key :=
  mem_idsUnder_addUnder

theorem danglingEnd?_eq_none_iff {store : Store} {start end_ : NodeId} :
    store.danglingEnd? start end_ = none
      ↔ store.hasNode start = true ∧ store.hasNode end_ = true := by
  unfold danglingEnd?
  cases store.hasNode start <;> cases store.hasNode end_ <;> simp

/-! ## §2. Deleting relationships. -/

theorem deleteRelationship_nodes (store : Store) (gone : RelationshipId) :
    (store.deleteRelationship gone).2.nodes = store.nodes
      ∧ (store.deleteRelationship gone).2.byLabel = store.byLabel
      ∧ (store.deleteRelationship gone).2.nextNodeId = store.nextNodeId
      ∧ (store.deleteRelationship gone).2.nextRelationshipId = store.nextRelationshipId := by
  unfold deleteRelationship
  cases store.relationship? gone <;> exact ⟨rfl, rfl, rfl, rfl⟩

theorem relationships_deleteRelationship (store : Store) (gone : RelationshipId) :
    (store.deleteRelationship gone).2.relationships = store.relationships.erase gone := by
  unfold deleteRelationship
  cases h : store.relationship? gone with
  | some relationship => rfl
  | none =>
    apply SortedMap.ext_find?
    intro id
    rw [SortedMap.find?_erase_eq]
    by_cases hid : id = gone
    · rw [if_pos hid, hid]
      exact h
    · rw [if_neg hid]

theorem relationship?_deleteRelationship {store : Store} {gone id : RelationshipId} :
    (store.deleteRelationship gone).2.relationship? id
      = if id = gone then none else store.relationship? id := by
  unfold relationship?
  rw [relationships_deleteRelationship, SortedMap.find?_erase_eq]

theorem mem_byStart_deleteRelationship {store : Store} {gone id : RelationshipId}
    {key : NodeId} :
    id ∈ idsUnder (store.deleteRelationship gone).2.byStart key
      ↔ id ∈ idsUnder store.byStart key
        ∧ ¬ (id = gone ∧ ∃ r, store.relationship? gone = some r ∧ r.start = key) := by
  unfold deleteRelationship
  cases h : store.relationship? gone with
  | none => simp
  | some relationship =>
    show id ∈ idsUnder (removeUnder store.byStart relationship.start gone) key ↔ _
    rw [mem_idsUnder_removeUnder]
    simp [and_comm, eq_comm]

theorem mem_byEnd_deleteRelationship {store : Store} {gone id : RelationshipId}
    {key : NodeId} :
    id ∈ idsUnder (store.deleteRelationship gone).2.byEnd key
      ↔ id ∈ idsUnder store.byEnd key
        ∧ ¬ (id = gone ∧ ∃ r, store.relationship? gone = some r ∧ r.end = key) := by
  unfold deleteRelationship
  cases h : store.relationship? gone with
  | none => simp
  | some relationship =>
    show id ∈ idsUnder (removeUnder store.byEnd relationship.end gone) key ↔ _
    rw [mem_idsUnder_removeUnder]
    simp [and_comm, eq_comm]

/-- What one deletion leaves alone, several leave alone. -/
theorem deleteRelationships_nodes (ids : List RelationshipId) :
    ∀ store : Store,
      (store.deleteRelationships ids).nodes = store.nodes
        ∧ (store.deleteRelationships ids).byLabel = store.byLabel
        ∧ (store.deleteRelationships ids).nextNodeId = store.nextNodeId
        ∧ (store.deleteRelationships ids).nextRelationshipId = store.nextRelationshipId := by
  induction ids with
  | nil => intro store; exact ⟨rfl, rfl, rfl, rfl⟩
  | cons gone ids ih =>
    intro store
    obtain ⟨h1, h2, h3, h4⟩ := ih (store.deleteRelationship gone).2
    obtain ⟨g1, g2, g3, g4⟩ := deleteRelationship_nodes store gone
    exact ⟨h1.trans g1, h2.trans g2, h3.trans g3, h4.trans g4⟩

theorem relationship?_deleteRelationships {ids : List RelationshipId} {id : RelationshipId} :
    ∀ {store : Store},
      (store.deleteRelationships ids).relationship? id
        = if id ∈ ids then none else store.relationship? id := by
  induction ids with
  | nil => intro store; rfl
  | cons gone ids ih =>
    intro store
    show ((store.deleteRelationship gone).2.deleteRelationships ids).relationship? id = _
    rw [ih, relationship?_deleteRelationship]
    by_cases hid : id = gone
    · simp [hid]
    · simp [hid]

/-- The start entries after several deletions: each deleted relationship has
lost the entry at its own start, and no other one. -/
theorem mem_byStart_deleteRelationships {ids : List RelationshipId} {id : RelationshipId}
    {key : NodeId} :
    ∀ {store : Store},
      id ∈ idsUnder (store.deleteRelationships ids).byStart key
        ↔ id ∈ idsUnder store.byStart key
          ∧ ¬ (id ∈ ids ∧ ∃ r, store.relationship? id = some r ∧ r.start = key) := by
  induction ids with
  | nil => intro store; simp [deleteRelationships]
  | cons gone ids ih =>
    intro store
    show id ∈ idsUnder ((store.deleteRelationship gone).2.deleteRelationships ids).byStart key ↔ _
    rw [ih, mem_byStart_deleteRelationship, relationship?_deleteRelationship, List.mem_cons]
    by_cases hid : id = gone
    · subst hid
      simp
    · simp [hid]

theorem mem_byEnd_deleteRelationships {ids : List RelationshipId} {id : RelationshipId}
    {key : NodeId} :
    ∀ {store : Store},
      id ∈ idsUnder (store.deleteRelationships ids).byEnd key
        ↔ id ∈ idsUnder store.byEnd key
          ∧ ¬ (id ∈ ids ∧ ∃ r, store.relationship? id = some r ∧ r.end = key) := by
  induction ids with
  | nil => intro store; simp [deleteRelationships]
  | cons gone ids ih =>
    intro store
    show id ∈ idsUnder ((store.deleteRelationship gone).2.deleteRelationships ids).byEnd key ↔ _
    rw [ih, mem_byEnd_deleteRelationship, relationship?_deleteRelationship, List.mem_cons]
    by_cases hid : id = gone
    · subst hid
      simp
    · simp [hid]

/-! ## §3. Deleting a node. -/

/-- The relationship `id` is entered at the node, at either end. -/
def ListedAt (store : Store) (node : NodeId) (id : RelationshipId) : Prop :=
  id ∈ idsUnder store.byStart node ∨ id ∈ idsUnder store.byEnd node

/-- The store between the two halves of a deletion: the entries of the node
are gone, and so are the relationships that were listed there. -/
def detached (store : Store) (id : NodeId) : Store :=
  ({ store with
      byStart := store.byStart.erase id
      byEnd := store.byEnd.erase id }).deleteRelationships
    (SortedSet.union ((store.byStart.find? id).getD ∅) ((store.byEnd.find? id).getD ∅)).toList

theorem deleteNode_of_node? {store : Store} {id : NodeId} {node : Node}
    (h : store.node? id = some node) :
    store.deleteNode id = (some node,
      { store.detached id with
        nodes := (store.detached id).nodes.erase id
        byLabel := node.labels.toList.foldl
          (fun index label => dropUnder index label id) (store.detached id).byLabel }) := by
  rw [deleteNode, h]
  rfl

theorem deleteNode_of_node?_none {store : Store} {id : NodeId} (h : store.node? id = none) :
    store.deleteNode id = (none, store) := by
  rw [deleteNode, h]

theorem mem_incident_iff {store : Store} {node : NodeId} {id : RelationshipId} :
    id ∈ (SortedSet.union ((store.byStart.find? node).getD ∅)
        ((store.byEnd.find? node).getD ∅)).toList ↔ store.ListedAt node id := by
  rw [SortedSet.mem_toList_union, ListedAt, idsUnder_eq, idsUnder_eq]

theorem detached_nodes (store : Store) (id : NodeId) :
    (store.detached id).nodes = store.nodes
      ∧ (store.detached id).byLabel = store.byLabel
      ∧ (store.detached id).nextNodeId = store.nextNodeId
      ∧ (store.detached id).nextRelationshipId = store.nextRelationshipId :=
  deleteRelationships_nodes _ _

variable {store : Store} {gone : NodeId} {node : Node}

theorem relationship?_detached {id : RelationshipId} {r : Relationship} :
    (store.detached gone).relationship? id = some r
      ↔ store.relationship? id = some r ∧ ¬ store.ListedAt gone id := by
  rw [detached, relationship?_deleteRelationships]
  by_cases h : store.ListedAt gone id
  · rw [if_pos (mem_incident_iff.2 h)]
    simp [h]
  · rw [if_neg (fun hmem => h (mem_incident_iff.1 hmem))]
    exact (and_iff_left h).symm

theorem mem_byStart_detached {id : RelationshipId} {key : NodeId} :
    id ∈ idsUnder (store.detached gone).byStart key
      ↔ key ≠ gone ∧ id ∈ idsUnder store.byStart key
        ∧ ¬ (store.ListedAt gone id ∧ ∃ r, store.relationship? id = some r ∧ r.start = key) := by
  rw [detached, mem_byStart_deleteRelationships, mem_incident_iff, mem_idsUnder_erase, and_assoc]
  rfl

theorem mem_byEnd_detached {id : RelationshipId} {key : NodeId} :
    id ∈ idsUnder (store.detached gone).byEnd key
      ↔ key ≠ gone ∧ id ∈ idsUnder store.byEnd key
        ∧ ¬ (store.ListedAt gone id ∧ ∃ r, store.relationship? id = some r ∧ r.end = key) := by
  rw [detached, mem_byEnd_deleteRelationships, mem_incident_iff, mem_idsUnder_erase, and_assoc]
  rfl

theorem nodes_deleteNode (h : store.node? gone = some node) :
    (store.deleteNode gone).2.nodes = store.nodes.erase gone := by
  rw [deleteNode_of_node? h, ← (detached_nodes store gone).1]

theorem node?_deleteNode (h : store.node? gone = some node) {id : NodeId} :
    (store.deleteNode gone).2.node? id = if id = gone then none else store.node? id := by
  rw [node?, nodes_deleteNode h, SortedMap.find?_erase_eq]
  rfl

theorem relationship?_deleteNode (h : store.node? gone = some node) {id : RelationshipId}
    {r : Relationship} :
    (store.deleteNode gone).2.relationship? id = some r
      ↔ store.relationship? id = some r ∧ ¬ store.ListedAt gone id := by
  rw [← relationship?_detached, deleteNode_of_node? h]
  rfl

theorem mem_byStart_deleteNode (h : store.node? gone = some node) {id : RelationshipId}
    {key : NodeId} :
    id ∈ idsUnder (store.deleteNode gone).2.byStart key
      ↔ key ≠ gone ∧ id ∈ idsUnder store.byStart key
        ∧ ¬ (store.ListedAt gone id ∧ ∃ r, store.relationship? id = some r ∧ r.start = key) := by
  rw [← mem_byStart_detached, deleteNode_of_node? h]

theorem mem_byEnd_deleteNode (h : store.node? gone = some node) {id : RelationshipId}
    {key : NodeId} :
    id ∈ idsUnder (store.deleteNode gone).2.byEnd key
      ↔ key ≠ gone ∧ id ∈ idsUnder store.byEnd key
        ∧ ¬ (store.ListedAt gone id ∧ ∃ r, store.relationship? id = some r ∧ r.end = key) := by
  rw [← mem_byEnd_detached, deleteNode_of_node? h]

theorem mem_byLabel_deleteNode (h : store.node? gone = some node) {id : NodeId}
    {label : Label} :
    id ∈ idsUnder (store.deleteNode gone).2.byLabel label
      ↔ id ∈ idsUnder store.byLabel label ∧ ¬ (node.hasLabel label = true ∧ id = gone) := by
  rw [deleteNode_of_node? h, Node.hasLabel_eq_true_iff, ← (detached_nodes store gone).2.1]
  exact mem_idsUnder_dropLabels

theorem counters_deleteNode (store : Store) (gone : NodeId) :
    (store.deleteNode gone).2.nextNodeId = store.nextNodeId
      ∧ (store.deleteNode gone).2.nextRelationshipId = store.nextRelationshipId := by
  cases h : store.node? gone with
  | none => rw [deleteNode_of_node?_none h]; exact ⟨rfl, rfl⟩
  | some node => rw [deleteNode_of_node? h]; exact (detached_nodes store gone).2.2

end Store

end PropertyGraph
