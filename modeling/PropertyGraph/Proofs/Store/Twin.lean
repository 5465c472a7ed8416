/-
  PropertyGraph.Proofs.Store.Twin
  ───────────────────────────────
  **STORES THAT CANNOT BE TOLD APART.**

  Two stores are twins if they have the same maps and counters and their
  indices list the same ids.  They may differ in one thing, which of their
  index entries are empty sets and which are missing.

      Coherent.twin  — two stores with exact indices and the same graph
      Twin.sameAs    — twins answer every question alike
      Twin.createNode, Twin.createRelationship,
      Twin.deleteNode, Twin.deleteRelationship
                     — and stay twins, wherever the counters stand

  No id has to be fresh for any of it: an entity that is replaced is replaced
  in both, and what it leaves in the indices is the same.
-/
import PropertyGraph.Proofs.Store.Reference

namespace PropertyGraph.Store

/-- The same maps, counters and lists of ids in the indices. -/
structure Twin (left right : Store) : Prop where
  nodes : left.nodes = right.nodes
  relationships : left.relationships = right.relationships
  byStart : ∀ id key, id ∈ idsUnder left.byStart key ↔ id ∈ idsUnder right.byStart key
  byEnd : ∀ id key, id ∈ idsUnder left.byEnd key ↔ id ∈ idsUnder right.byEnd key
  byLabel : ∀ id label, id ∈ idsUnder left.byLabel label ↔ id ∈ idsUnder right.byLabel label
  nextNodeId : left.nextNodeId = right.nextNodeId
  nextRelationshipId : left.nextRelationshipId = right.nextRelationshipId

variable {left right : Store}

theorem Twin.refl (store : Store) : store.Twin store where
  nodes := rfl
  relationships := rfl
  byStart _ _ := Iff.rfl
  byEnd _ _ := Iff.rfl
  byLabel _ _ := Iff.rfl
  nextNodeId := rfl
  nextRelationshipId := rfl

/-! ## §1. Questions. -/

theorem Twin.node? (h : left.Twin right) (id : NodeId) : left.node? id = right.node? id := by
  rw [Store.node?, Store.node?, h.nodes]

theorem Twin.relationship? (h : left.Twin right) (id : RelationshipId) :
    left.relationship? id = right.relationship? id := by
  rw [Store.relationship?, Store.relationship?, h.relationships]

theorem Twin.listedAt_iff (h : left.Twin right) {node : NodeId} {id : RelationshipId} :
    left.ListedAt node id ↔ right.ListedAt node id :=
  or_congr (h.byStart id node) (h.byEnd id node)

/-- **Exact indices leave no choice.** -/
theorem Coherent.twin (hleft : Coherent left) (hright : Coherent right)
    (h : left.plain = right.plain) : left.Twin right := by
  have hnode : ∀ id, left.node? id = right.node? id := fun id =>
    congrArg (fun graph => graph.nodes.find? id) h
  have hrelationship : ∀ id, left.relationship? id = right.relationship? id := fun id =>
    congrArg (fun graph => graph.relationships.find? id) h
  exact
    { nodes := congrArg PlainGraph.nodes h
      relationships := congrArg PlainGraph.relationships h
      byStart := fun id key => by
        rw [hleft.mem_byStart_iff, hright.mem_byStart_iff, hrelationship]
      byEnd := fun id key => by
        rw [hleft.mem_byEnd_iff, hright.mem_byEnd_iff, hrelationship]
      byLabel := fun id label => by
        rw [hleft.mem_byLabel_iff, hright.mem_byLabel_iff, hnode]
      nextNodeId := congrArg PlainGraph.nextNodeId h
      nextRelationshipId := congrArg PlainGraph.nextRelationshipId h }

theorem idsUnder_eq_of_mem_iff {κ : Type} [Ord κ] {index other : SortedMap κ (SortedSet Nat)}
    (h : ∀ id key, id ∈ idsUnder index key ↔ id ∈ idsUnder other key) (key : κ) :
    idsUnder index key = idsUnder other key :=
  eq_of_mem_iff (pairwise_idsUnder index key) (pairwise_idsUnder other key)
    (fun id => h id key)

/-- **Twins answer every question alike.** -/
theorem Twin.sameAs (h : left.Twin right) : left.SameAs right where
  node? := h.node?
  relationship? := h.relationship?
  allNodes := by rw [allNodes, allNodes, h.nodes]
  allRelationships := by rw [allRelationships, allRelationships, h.relationships]
  leaving id := by
    rw [leaving, leaving, idsUnder_eq_of_mem_iff h.byStart, funext h.relationship?]
  entering id := by
    rw [entering, entering, idsUnder_eq_of_mem_iff h.byEnd, funext h.relationship?]
  labelled label := by
    rw [labelled, labelled, idsUnder_eq_of_mem_iff h.byLabel, funext h.node?]
  nodeCount := by rw [nodeCount, nodeCount, h.nodes]
  relationshipCount := by rw [relationshipCount, relationshipCount, h.relationships]
  nextNodeId := h.nextNodeId
  nextRelationshipId := h.nextRelationshipId

/-! ## §2. Creation. -/

theorem Twin.putNode (h : left.Twin right) (node : Node) :
    (left.putNode node).Twin (right.putNode node) where
  nodes := congrArg (·.insert node.id node) h.nodes
  relationships := h.relationships
  byStart := h.byStart
  byEnd := h.byEnd
  byLabel id label :=
    mem_byLabel_putNode.trans ((or_congr_right (h.byLabel id label)).trans mem_byLabel_putNode.symm)
  nextNodeId := h.nextNodeId
  nextRelationshipId := h.nextRelationshipId

theorem Twin.putRelationship (h : left.Twin right) (r : Relationship) :
    (left.putRelationship r).Twin (right.putRelationship r) where
  nodes := h.nodes
  relationships := congrArg (·.insert r.id r) h.relationships
  byStart id key := mem_byStart_putRelationship.trans
    ((or_congr_right (h.byStart id key)).trans mem_byStart_putRelationship.symm)
  byEnd id key := mem_byEnd_putRelationship.trans
    ((or_congr_right (h.byEnd id key)).trans mem_byEnd_putRelationship.symm)
  byLabel := h.byLabel
  nextNodeId := h.nextNodeId
  nextRelationshipId := h.nextRelationshipId

theorem Twin.withCounters (h : left.Twin right) (nextNodeId : NodeId)
    (nextRelationshipId : RelationshipId) :
    Twin { left with nextNodeId, nextRelationshipId }
      { right with nextNodeId, nextRelationshipId } :=
  { h with nextNodeId := rfl, nextRelationshipId := rfl }

/-- **A node is made** under the same id. -/
theorem Twin.createNode (h : left.Twin right) (labels : List Label) (properties : PropertyMap) :
    (left.createNode labels properties).1 = (right.createNode labels properties).1
      ∧ (left.createNode labels properties).2.Twin (right.createNode labels properties).2 := by
  unfold Store.createNode
  rw [h.nextNodeId]
  dsimp only
  rw [h.nextRelationshipId]
  exact ⟨rfl, (h.withCounters _ _).putNode _⟩

/-- **A relationship is made** under the same id, or refused for the same
reason. -/
theorem Twin.createRelationship (h : left.Twin right) (type : RelationshipType)
    (start end_ : NodeId) (properties : PropertyMap) :
    (∃ error, left.createRelationship type start end_ properties = .error error
        ∧ right.createRelationship type start end_ properties = .error error)
      ∨ ∃ id leftAfter rightAfter,
          left.createRelationship type start end_ properties = .ok (id, leftAfter)
            ∧ right.createRelationship type start end_ properties = .ok (id, rightAfter)
            ∧ leftAfter.Twin rightAfter := by
  have hends : left.danglingEnd? start end_ = right.danglingEnd? start end_ := by
    unfold danglingEnd? hasNode
    rw [h.nodes]
  unfold Store.createRelationship
  rw [hends, h.nextRelationshipId, h.nextNodeId]
  cases right.danglingEnd? start end_ with
  | some error => exact .inl ⟨error, rfl, rfl⟩
  | none => exact .inr ⟨_, _, _, rfl, rfl, (h.withCounters _ _).putRelationship _⟩

/-! ## §3. Deletion. -/

theorem Twin.deleteRelationship (h : left.Twin right) (gone : RelationshipId) :
    (left.deleteRelationship gone).2.Twin (right.deleteRelationship gone).2 := by
  obtain ⟨hnodes, hlabel, hnextNode, hnextRelationship⟩ := deleteRelationship_nodes left gone
  obtain ⟨hnodes', hlabel', hnextNode', hnextRelationship'⟩ := deleteRelationship_nodes right gone
  refine ⟨?_, ?_, fun id key => ?_, fun id key => ?_, fun id label => ?_, ?_, ?_⟩
  · rw [hnodes, hnodes', h.nodes]
  · rw [relationships_deleteRelationship, relationships_deleteRelationship, h.relationships]
  · rw [mem_byStart_deleteRelationship, mem_byStart_deleteRelationship, h.byStart,
      h.relationship?]
  · rw [mem_byEnd_deleteRelationship, mem_byEnd_deleteRelationship, h.byEnd, h.relationship?]
  · rw [hlabel, hlabel', h.byLabel]
  · rw [hnextNode, hnextNode', h.nextNodeId]
  · rw [hnextRelationship, hnextRelationship', h.nextRelationshipId]

theorem Twin.deleteNode (h : left.Twin right) (gone : NodeId) :
    (left.deleteNode gone).2.Twin (right.deleteNode gone).2 := by
  cases hright : right.node? gone with
  | none => rwa [deleteNode_of_node?_none hright, deleteNode_of_node?_none (h.node? gone ▸ hright)]
  | some node =>
    have hleft : left.node? gone = some node := (h.node? gone).trans hright
    obtain ⟨hnextNode, hnextRelationship⟩ := counters_deleteNode left gone
    obtain ⟨hnextNode', hnextRelationship'⟩ := counters_deleteNode right gone
    refine ⟨?_, ?_, fun id key => ?_, fun id key => ?_, fun id label => ?_, ?_, ?_⟩
    · rw [nodes_deleteNode hleft, nodes_deleteNode hright, h.nodes]
    · apply SortedMap.ext_find?
      intro id
      rw [Option.ext_iff]
      intro r
      show (left.deleteNode gone).2.relationship? id = some r
        ↔ (right.deleteNode gone).2.relationship? id = some r
      rw [relationship?_deleteNode hleft, relationship?_deleteNode hright, h.relationship?,
        h.listedAt_iff]
    · rw [mem_byStart_deleteNode hleft, mem_byStart_deleteNode hright, h.byStart, h.listedAt_iff,
        h.relationship?]
    · rw [mem_byEnd_deleteNode hleft, mem_byEnd_deleteNode hright, h.byEnd, h.listedAt_iff,
        h.relationship?]
    · rw [mem_byLabel_deleteNode hleft, mem_byLabel_deleteNode hright, h.byLabel]
    · rw [hnextNode, hnextNode', h.nextNodeId]
    · rw [hnextRelationship, hnextRelationship', h.nextRelationshipId]

end PropertyGraph.Store
