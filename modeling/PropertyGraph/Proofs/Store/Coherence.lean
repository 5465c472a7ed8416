/-
  PropertyGraph.Proofs.Store.Coherence
  ────────────────────────────────────
  **THE TWO INVARIANTS OF A STORE.**

  `Integral` survives every operation, repeated restoring included: entities
  stand under their own ids, relationships join nodes of the store, and each
  index lists AT LEAST what it should.

  `Coherent` adds that the indices list NOTHING ELSE.  It survives every
  operation that enters nothing under an id in use (`Coherent.apply`), so it
  holds of every reachable store.

      Store.Integral.apply  — any operation
      Store.Coherent.apply  — an untangled operation
      Store.Coherent.run    — an untangled run

  Neither speaks of the counters: these only grow (`counters_le_apply`) while
  the ids last, and `Bounded` says what they are past until then.
-/
import PropertyGraph.Proofs.Store.Effects
import PropertyGraph.Proofs.Store.Operation

namespace PropertyGraph.Store

/-! ## §1. The invariants. -/

/-- Entities are where they belong, and the indices list at least them. -/
structure Integral (store : Store) : Prop where
  node_id : ∀ {id node}, store.node? id = some node → node.id = id
  relationship_id : ∀ {id r}, store.relationship? id = some r → r.id = id
  start_exists : ∀ {id r}, store.relationship? id = some r → ∃ node, store.node? r.start = some node
  end_exists : ∀ {id r}, store.relationship? id = some r → ∃ node, store.node? r.end = some node
  byStart_of : ∀ {id r}, store.relationship? id = some r → id ∈ idsUnder store.byStart r.start
  byEnd_of : ∀ {id r}, store.relationship? id = some r → id ∈ idsUnder store.byEnd r.end
  byLabel_of : ∀ {id node label}, store.node? id = some node → node.hasLabel label = true →
    id ∈ idsUnder store.byLabel label

/-- Moreover the indices list nothing else. -/
structure Coherent (store : Store) : Prop extends Integral store where
  of_byStart : ∀ {id key}, id ∈ idsUnder store.byStart key →
    ∃ r, store.relationship? id = some r ∧ r.start = key
  of_byEnd : ∀ {id key}, id ∈ idsUnder store.byEnd key →
    ∃ r, store.relationship? id = some r ∧ r.end = key
  of_byLabel : ∀ {id label}, id ∈ idsUnder store.byLabel label →
    ∃ node, store.node? id = some node ∧ node.hasLabel label = true

theorem coherent_empty : Coherent empty where
  node_id h := nomatch h
  relationship_id h := nomatch h
  start_exists h := nomatch h
  end_exists h := nomatch h
  byStart_of h := nomatch h
  byEnd_of h := nomatch h
  byLabel_of h := nomatch h
  of_byStart h := nomatch h
  of_byEnd h := nomatch h
  of_byLabel h := nomatch h

/-! ## §2. A node is entered. -/

/-- `after` is `store` with `node` entered under its id and its labels, and
with a counter past that id, unless that was the last one. -/
structure EntersNode (store after : Store) (node : Node) : Prop where
  node? : ∀ id, after.node? id = if id = node.id then some node else store.node? id
  byLabel : ∀ id label, id ∈ idsUnder after.byLabel label
    ↔ (node.hasLabel label = true ∧ id = node.id) ∨ id ∈ idsUnder store.byLabel label
  relationships : after.relationships = store.relationships
  byStart : after.byStart = store.byStart
  byEnd : after.byEnd = store.byEnd
  id_lt : node.id + 1 < UInt64.size → node.id < after.nextNodeId
  nextNodeId_le : node.id + 1 < UInt64.size → store.nextNodeId ≤ after.nextNodeId
  nextRelationshipId : after.nextRelationshipId = store.nextRelationshipId

theorem entersNode_createNode (store : Store) (labels : List Label) (properties : PropertyMap) :
    EntersNode store (store.createNode labels properties).2
      ⟨store.nextNodeId, SortedSet.ofList labels, properties⟩ where
  node? _ := node?_putNode
  byLabel _ _ := mem_byLabel_putNode
  relationships := rfl
  byStart := rfl
  byEnd := rfl
  id_lt := lt_nextId
  nextNodeId_le hfits := Nat.le_of_lt (lt_nextId hfits)
  nextRelationshipId := rfl

theorem entersNode_restoreNode (store : Store) (node : Node) :
    EntersNode store (store.restoreNode node) node where
  node? _ := node?_putNode
  byLabel _ _ := mem_byLabel_putNode
  relationships := rfl
  byStart := rfl
  byEnd := rfl
  id_lt hfits := Nat.lt_of_lt_of_le (lt_nextId hfits) (Nat.le_max_right _ _)
  nextNodeId_le _ := Nat.le_max_left _ _
  nextRelationshipId := rfl

section

variable {store after : Store} {node : Node}

theorem EntersNode.relationship? (h : EntersNode store after node) (id : RelationshipId) :
    after.relationship? id = store.relationship? id := by
  unfold Store.relationship?
  rw [h.relationships]

theorem EntersNode.node?_of_some (h : EntersNode store after node) {id : NodeId} {old : Node}
    (hold : store.node? id = some old) : ∃ new, after.node? id = some new := by
  rw [h.node?]
  split
  · exact ⟨node, rfl⟩
  · exact ⟨old, hold⟩

theorem Integral.entersNode (hstore : Integral store) (h : EntersNode store after node) :
    Integral after where
  node_id hid := by
    -- the node that entered, or one from before
    rw [h.node?] at hid
    split at hid
    next heq => rw [← Option.some.inj hid, heq]
    next => exact hstore.node_id hid
  relationship_id hid := hstore.relationship_id (h.relationship? _ ▸ hid)
  start_exists hid := by
    obtain ⟨old, hold⟩ := hstore.start_exists (h.relationship? _ ▸ hid)
    exact h.node?_of_some hold
  end_exists hid := by
    obtain ⟨old, hold⟩ := hstore.end_exists (h.relationship? _ ▸ hid)
    exact h.node?_of_some hold
  byStart_of hid := h.byStart ▸ hstore.byStart_of (h.relationship? _ ▸ hid)
  byEnd_of hid := h.byEnd ▸ hstore.byEnd_of (h.relationship? _ ▸ hid)
  byLabel_of hid hlabel := by
    rw [h.byLabel]
    rw [h.node?] at hid
    split at hid
    next heq => exact .inl ⟨Option.some.inj hid ▸ hlabel, heq⟩
    next => exact .inr (hstore.byLabel_of hid hlabel)

theorem Coherent.entersNode (hstore : Coherent store) (h : EntersNode store after node)
    (hunused : store.node? node.id = none) : Coherent after where
  toIntegral := hstore.toIntegral.entersNode h
  of_byStart hid := by
    rw [h.byStart] at hid
    obtain ⟨r, hr, hstart⟩ := hstore.of_byStart hid
    exact ⟨r, (h.relationship? _).trans hr, hstart⟩
  of_byEnd hid := by
    rw [h.byEnd] at hid
    obtain ⟨r, hr, hend⟩ := hstore.of_byEnd hid
    exact ⟨r, (h.relationship? _).trans hr, hend⟩
  of_byLabel {id label} hid := by
    rw [h.byLabel] at hid
    rw [h.node?]
    rcases hid with ⟨hlabel, heq⟩ | hold
    · exact ⟨node, if_pos heq, hlabel⟩
    · obtain ⟨old, hfound, hlabel⟩ := hstore.of_byLabel hold
      -- an id that is listed is in use, so it is not the id of the new node
      have hne : id ≠ node.id := by
        intro heq
        rw [heq, hunused] at hfound
        exact absurd hfound (by simp)
      exact ⟨old, (if_neg hne).trans hfound, hlabel⟩

end

/-! ## §3. A relationship is entered. -/

/-- `after` is `store` with `relationship` entered under its id and at both
ends, and with a counter past that id, unless that was the last one. -/
structure EntersRelationship (store after : Store) (relationship : Relationship) : Prop where
  relationship? : ∀ id, after.relationship? id
    = if id = relationship.id then some relationship else store.relationship? id
  byStart : ∀ id key, id ∈ idsUnder after.byStart key
    ↔ (key = relationship.start ∧ id = relationship.id) ∨ id ∈ idsUnder store.byStart key
  byEnd : ∀ id key, id ∈ idsUnder after.byEnd key
    ↔ (key = relationship.end ∧ id = relationship.id) ∨ id ∈ idsUnder store.byEnd key
  start_exists : ∃ node, store.node? relationship.start = some node
  end_exists : ∃ node, store.node? relationship.end = some node
  nodes : after.nodes = store.nodes
  byLabel : after.byLabel = store.byLabel
  id_lt : relationship.id + 1 < UInt64.size → relationship.id < after.nextRelationshipId
  nextRelationshipId_le : relationship.id + 1 < UInt64.size →
    store.nextRelationshipId ≤ after.nextRelationshipId
  nextNodeId : after.nextNodeId = store.nextNodeId

theorem entersRelationship_createRelationship {store after : Store} {type : RelationshipType}
    {start end_ : NodeId} {properties : PropertyMap} {id : RelationshipId}
    (h : store.createRelationship type start end_ properties = .ok (id, after)) :
    EntersRelationship store after ⟨id, type, start, end_, properties⟩
      ∧ id = store.nextRelationshipId := by
  unfold createRelationship at h
  split at h
  next => cases h
  next hnone =>
    obtain ⟨hstart, hend⟩ := danglingEnd?_eq_none_iff.1 hnone
    obtain ⟨rfl, rfl⟩ := Prod.mk.inj (Except.ok.inj h)
    refine ⟨?_, rfl⟩
    exact
      { relationship? := fun _ => relationship?_putRelationship
        byStart := fun _ _ => mem_byStart_putRelationship
        byEnd := fun _ _ => mem_byEnd_putRelationship
        start_exists := hasNode_eq_true_iff.1 hstart
        end_exists := hasNode_eq_true_iff.1 hend
        nodes := rfl
        byLabel := rfl
        id_lt := lt_nextId
        nextRelationshipId_le := fun hfits => Nat.le_of_lt (lt_nextId hfits)
        nextNodeId := rfl }

theorem entersRelationship_restoreRelationship {store after : Store} {relationship : Relationship}
    (h : store.restoreRelationship relationship = .ok after) :
    EntersRelationship store after relationship := by
  unfold restoreRelationship at h
  split at h
  next => cases h
  next hnone =>
    obtain ⟨hstart, hend⟩ := danglingEnd?_eq_none_iff.1 hnone
    obtain rfl := Except.ok.inj h
    exact
      { relationship? := fun _ => relationship?_putRelationship
        byStart := fun _ _ => mem_byStart_putRelationship
        byEnd := fun _ _ => mem_byEnd_putRelationship
        start_exists := hasNode_eq_true_iff.1 hstart
        end_exists := hasNode_eq_true_iff.1 hend
        nodes := rfl
        byLabel := rfl
        id_lt := fun hfits => Nat.lt_of_lt_of_le (lt_nextId hfits) (Nat.le_max_right _ _)
        nextRelationshipId_le := fun _ => Nat.le_max_left _ _
        nextNodeId := rfl }

section

variable {store after : Store} {relationship : Relationship}

theorem EntersRelationship.node? (h : EntersRelationship store after relationship) (id : NodeId) :
    after.node? id = store.node? id := by
  unfold Store.node?
  rw [h.nodes]

theorem EntersRelationship.danglingEnd?_eq_none
    (h : EntersRelationship store after relationship) :
    store.danglingEnd? relationship.start relationship.end = none :=
  danglingEnd?_eq_none_iff.2
    ⟨hasNode_eq_true_iff.2 h.start_exists, hasNode_eq_true_iff.2 h.end_exists⟩

theorem Integral.entersRelationship (hstore : Integral store)
    (h : EntersRelationship store after relationship) : Integral after where
  node_id hid := hstore.node_id (h.node? _ ▸ hid)
  relationship_id hid := by
    -- the relationship that entered, or one from before
    rw [h.relationship?] at hid
    split at hid
    next heq => rw [← Option.some.inj hid, heq]
    next => exact hstore.relationship_id hid
  start_exists hid := by
    rw [h.relationship?] at hid
    rw [h.node?]
    split at hid
    next => exact Option.some.inj hid ▸ h.start_exists
    next => exact hstore.start_exists hid
  end_exists hid := by
    rw [h.relationship?] at hid
    rw [h.node?]
    split at hid
    next => exact Option.some.inj hid ▸ h.end_exists
    next => exact hstore.end_exists hid
  byStart_of hid := by
    rw [h.byStart]
    rw [h.relationship?] at hid
    split at hid
    next heq => exact .inl ⟨by rw [Option.some.inj hid], heq⟩
    next => exact .inr (hstore.byStart_of hid)
  byEnd_of hid := by
    rw [h.byEnd]
    rw [h.relationship?] at hid
    split at hid
    next heq => exact .inl ⟨by rw [Option.some.inj hid], heq⟩
    next => exact .inr (hstore.byEnd_of hid)
  byLabel_of hid hlabel := h.byLabel ▸ hstore.byLabel_of (h.node? _ ▸ hid) hlabel

theorem Coherent.entersRelationship (hstore : Coherent store)
    (h : EntersRelationship store after relationship)
    (hunused : store.relationship? relationship.id = none) : Coherent after where
  toIntegral := hstore.toIntegral.entersRelationship h
  of_byStart {id key} hid := by
    rw [h.byStart] at hid
    rw [h.relationship?]
    rcases hid with ⟨hkey, heq⟩ | hold
    · exact ⟨relationship, if_pos heq, hkey.symm⟩
    · obtain ⟨r, hr, hstart⟩ := hstore.of_byStart hold
      -- an entry from before belongs to a relationship from before, with another id
      have hne : id ≠ relationship.id := by
        intro heq
        rw [heq, hunused] at hr
        exact absurd hr (by simp)
      exact ⟨r, (if_neg hne).trans hr, hstart⟩
  of_byEnd {id key} hid := by
    rw [h.byEnd] at hid
    rw [h.relationship?]
    rcases hid with ⟨hkey, heq⟩ | hold
    · exact ⟨relationship, if_pos heq, hkey.symm⟩
    · obtain ⟨r, hr, hend⟩ := hstore.of_byEnd hold
      have hne : id ≠ relationship.id := by
        intro heq
        rw [heq, hunused] at hr
        exact absurd hr (by simp)
      exact ⟨r, (if_neg hne).trans hr, hend⟩
  of_byLabel hid := by
    rw [h.byLabel] at hid
    obtain ⟨node, hnode, hlabel⟩ := hstore.of_byLabel hid
    exact ⟨node, (h.node? _).trans hnode, hlabel⟩

end

/-! ## §4. Properties and counters. -/

section

variable {store : Store}

theorem Integral.reserve (hstore : Integral store) (nextNode : NodeId)
    (nextRelationship : RelationshipId) : Integral (store.reserve nextNode nextRelationship) :=
  { hstore with }

theorem Coherent.reserve (hstore : Coherent store) (nextNode : NodeId)
    (nextRelationship : RelationshipId) : Coherent (store.reserve nextNode nextRelationship) where
  toIntegral := hstore.toIntegral.reserve nextNode nextRelationship
  of_byStart := hstore.of_byStart
  of_byEnd := hstore.of_byEnd
  of_byLabel := hstore.of_byLabel

theorem setProperties_eq_ok_iff {after : Store} {id : NodeId} {properties old : PropertyMap} :
    store.setProperties id properties = .ok (old, after)
      ↔ ∃ node, store.node? id = some node ∧ node.properties = old
        ∧ after = { store with nodes := store.nodes.insert id { node with properties } } := by
  unfold setProperties
  cases h : store.node? id with
  | none => simp
  | some node =>
    simp only [Node.replaceProperties, Except.ok.injEq, Prod.mk.injEq, Option.some.injEq,
      exists_eq_left']
    rw [@eq_comm _ after]

/-- A node with other properties has the same id and the same labels, so no
index notices. -/
theorem node?_insert_properties {id other : NodeId} {node : Node} {properties : PropertyMap} :
    ({ store with nodes := store.nodes.insert id { node with properties } } : Store).node? other
      = if other = id then some { node with properties } else store.node? other :=
  SortedMap.find?_insert_eq store.nodes id other _

theorem Integral.setProperties (hstore : Integral store) {id : NodeId} {node : Node}
    (hnode : store.node? id = some node) (properties : PropertyMap) :
    Integral { store with nodes := store.nodes.insert id { node with properties } } := by
  -- every node that was there is still there, if with other properties
  have hkeep : ∀ {other : NodeId} {n : Node}, store.node? other = some n →
      ∃ m, ({ store with nodes := store.nodes.insert id { node with properties } } : Store).node?
        other = some m := by
    intro other n hn
    rw [node?_insert_properties]
    split
    · exact ⟨_, rfl⟩
    · exact ⟨n, hn⟩
  exact
    { node_id := fun h => by
        rw [node?_insert_properties] at h
        split at h
        next heq =>
          rw [← Option.some.inj h, heq]
          show node.id = id
          exact hstore.node_id hnode
        next => exact hstore.node_id h
      relationship_id := hstore.relationship_id
      start_exists := fun h => hkeep (hstore.start_exists h).choose_spec
      end_exists := fun h => hkeep (hstore.end_exists h).choose_spec
      byStart_of := hstore.byStart_of
      byEnd_of := hstore.byEnd_of
      byLabel_of := fun h hlabel => by
        rw [node?_insert_properties] at h
        split at h
        next heq =>
          rw [← Option.some.inj h] at hlabel
          have hlabel' : node.hasLabel _ = true := hlabel
          rw [heq]
          exact hstore.byLabel_of hnode hlabel'
        next => exact hstore.byLabel_of h hlabel }

theorem Coherent.setProperties (hstore : Coherent store) {id : NodeId} {node : Node}
    (hnode : store.node? id = some node) (properties : PropertyMap) :
    Coherent { store with nodes := store.nodes.insert id { node with properties } } where
  toIntegral := hstore.toIntegral.setProperties hnode properties
  of_byStart := hstore.of_byStart
  of_byEnd := hstore.of_byEnd
  of_byLabel {other label} h := by
    obtain ⟨old, hold, hlabel⟩ := hstore.of_byLabel h
    rw [node?_insert_properties]
    by_cases heq : other = id
    · rw [heq, hnode] at hold
      obtain rfl := Option.some.inj hold
      exact ⟨_, if_pos heq, hlabel⟩
    · exact ⟨old, (if_neg heq).trans hold, hlabel⟩

/-! ## §5. Deletion. -/

theorem node?_deleteRelationship (store : Store) (gone : RelationshipId) (id : NodeId) :
    (store.deleteRelationship gone).2.node? id = store.node? id := by
  unfold Store.node?
  rw [(deleteRelationship_nodes store gone).1]

/-- A relationship that is there after a deletion was there before, and is
another one. -/
theorem relationship?_deleteRelationship_eq_some_iff {gone id : RelationshipId}
    {r : Relationship} :
    (store.deleteRelationship gone).2.relationship? id = some r
      ↔ id ≠ gone ∧ store.relationship? id = some r := by
  rw [relationship?_deleteRelationship]
  split
  next heq => simp [heq]
  next hne => simp [hne]

theorem Integral.deleteRelationship (hstore : Integral store) (gone : RelationshipId) :
    Integral (store.deleteRelationship gone).2 where
  node_id h := hstore.node_id (node?_deleteRelationship store gone _ ▸ h)
  relationship_id h := hstore.relationship_id (relationship?_deleteRelationship_eq_some_iff.1 h).2
  start_exists h := by
    rw [node?_deleteRelationship]
    exact hstore.start_exists (relationship?_deleteRelationship_eq_some_iff.1 h).2
  end_exists h := by
    rw [node?_deleteRelationship]
    exact hstore.end_exists (relationship?_deleteRelationship_eq_some_iff.1 h).2
  byStart_of h := by
    obtain ⟨hne, hold⟩ := relationship?_deleteRelationship_eq_some_iff.1 h
    exact mem_byStart_deleteRelationship.2 ⟨hstore.byStart_of hold, fun hgone => hne hgone.1⟩
  byEnd_of h := by
    obtain ⟨hne, hold⟩ := relationship?_deleteRelationship_eq_some_iff.1 h
    exact mem_byEnd_deleteRelationship.2 ⟨hstore.byEnd_of hold, fun hgone => hne hgone.1⟩
  byLabel_of h hlabel := by
    rw [(deleteRelationship_nodes store gone).2.1]
    exact hstore.byLabel_of (node?_deleteRelationship store gone _ ▸ h) hlabel

theorem Coherent.deleteRelationship (hstore : Coherent store) (gone : RelationshipId) :
    Coherent (store.deleteRelationship gone).2 where
  toIntegral := hstore.toIntegral.deleteRelationship gone
  of_byStart h := by
    obtain ⟨hold, hnot⟩ := mem_byStart_deleteRelationship.1 h
    obtain ⟨r, hr, hstart⟩ := hstore.of_byStart hold
    -- the deleted relationship was listed at its own start only, and there no longer
    have hne := fun heq => hnot ⟨heq, r, heq ▸ hr, hstart⟩
    exact ⟨r, relationship?_deleteRelationship_eq_some_iff.2 ⟨hne, hr⟩, hstart⟩
  of_byEnd h := by
    obtain ⟨hold, hnot⟩ := mem_byEnd_deleteRelationship.1 h
    obtain ⟨r, hr, hend⟩ := hstore.of_byEnd hold
    have hne := fun heq => hnot ⟨heq, r, heq ▸ hr, hend⟩
    exact ⟨r, relationship?_deleteRelationship_eq_some_iff.2 ⟨hne, hr⟩, hend⟩
  of_byLabel h := by
    rw [(deleteRelationship_nodes store gone).2.1] at h
    obtain ⟨node, hnode, hlabel⟩ := hstore.of_byLabel h
    exact ⟨node, (node?_deleteRelationship store gone _).trans hnode, hlabel⟩

section

variable {gone : NodeId} {node : Node}

theorem node?_deleteNode_eq_some_iff (hgone : store.node? gone = some node) {id : NodeId}
    {n : Node} :
    (store.deleteNode gone).2.node? id = some n ↔ id ≠ gone ∧ store.node? id = some n := by
  rw [node?_deleteNode hgone]
  split
  next heq => simp [heq]
  next hne => simp [hne]

/-- Nothing that survives touches the deleted node, because everything that
touched it was listed there. -/
theorem Integral.untouched_of_relationship?_deleteNode (hstore : Integral store)
    (hgone : store.node? gone = some node) {id : RelationshipId} {r : Relationship}
    (h : (store.deleteNode gone).2.relationship? id = some r) :
    store.relationship? id = some r ∧ r.start ≠ gone ∧ r.end ≠ gone := by
  obtain ⟨hold, hnot⟩ := (relationship?_deleteNode hgone).1 h
  refine ⟨hold, ?_, ?_⟩
  · intro heq
    exact hnot (.inl (heq ▸ hstore.byStart_of hold))
  · intro heq
    exact hnot (.inr (heq ▸ hstore.byEnd_of hold))

theorem Integral.deleteNode (hstore : Integral store) (hgone : store.node? gone = some node) :
    Integral (store.deleteNode gone).2 where
  node_id h := hstore.node_id ((node?_deleteNode_eq_some_iff hgone).1 h).2
  relationship_id h := hstore.relationship_id ((relationship?_deleteNode hgone).1 h).1
  start_exists h := by
    -- a relationship that is left did not touch the node
    obtain ⟨hold, hstart, -⟩ := hstore.untouched_of_relationship?_deleteNode hgone h
    obtain ⟨n, hn⟩ := hstore.start_exists hold
    exact ⟨n, (node?_deleteNode_eq_some_iff hgone).2 ⟨hstart, hn⟩⟩
  end_exists h := by
    obtain ⟨hold, -, hend⟩ := hstore.untouched_of_relationship?_deleteNode hgone h
    obtain ⟨n, hn⟩ := hstore.end_exists hold
    exact ⟨n, (node?_deleteNode_eq_some_iff hgone).2 ⟨hend, hn⟩⟩
  byStart_of h := by
    obtain ⟨hold, hstart, -⟩ := hstore.untouched_of_relationship?_deleteNode hgone h
    have hnot := ((relationship?_deleteNode hgone).1 h).2
    exact (mem_byStart_deleteNode hgone).2
      ⟨hstart, hstore.byStart_of hold, fun hlisted => hnot hlisted.1⟩
  byEnd_of h := by
    obtain ⟨hold, -, hend⟩ := hstore.untouched_of_relationship?_deleteNode hgone h
    have hnot := ((relationship?_deleteNode hgone).1 h).2
    exact (mem_byEnd_deleteNode hgone).2
      ⟨hend, hstore.byEnd_of hold, fun hlisted => hnot hlisted.1⟩
  byLabel_of h hlabel := by
    obtain ⟨hne, hold⟩ := (node?_deleteNode_eq_some_iff hgone).1 h
    exact (mem_byLabel_deleteNode hgone).2 ⟨hstore.byLabel_of hold hlabel, fun heq => hne heq.2⟩

theorem Coherent.deleteNode (hstore : Coherent store) (hgone : store.node? gone = some node) :
    Coherent (store.deleteNode gone).2 where
  toIntegral := hstore.toIntegral.deleteNode hgone
  of_byStart h := by
    obtain ⟨-, hold, hnot⟩ := (mem_byStart_deleteNode hgone).1 h
    obtain ⟨r, hr, hstart⟩ := hstore.of_byStart hold
    have hfree := fun hlisted => hnot ⟨hlisted, r, hr, hstart⟩
    exact ⟨r, (relationship?_deleteNode hgone).2 ⟨hr, hfree⟩, hstart⟩
  of_byEnd h := by
    obtain ⟨-, hold, hnot⟩ := (mem_byEnd_deleteNode hgone).1 h
    obtain ⟨r, hr, hend⟩ := hstore.of_byEnd hold
    have hfree := fun hlisted => hnot ⟨hlisted, r, hr, hend⟩
    exact ⟨r, (relationship?_deleteNode hgone).2 ⟨hr, hfree⟩, hend⟩
  of_byLabel {id label} h := by
    obtain ⟨hold, hnot⟩ := (mem_byLabel_deleteNode hgone).1 h
    obtain ⟨n, hn, hlabel⟩ := hstore.of_byLabel hold
    -- the entries of the node itself are gone from the index of labels
    have hne : id ≠ gone := by
      intro heq
      rw [heq, hgone] at hn
      exact hnot ⟨Option.some.inj hn ▸ hlabel, heq⟩
    exact ⟨n, (node?_deleteNode_eq_some_iff hgone).2 ⟨hne, hn⟩, hlabel⟩

end

end

/-! ## §6. What one operation can do. -/

/-- The store after one operation, by what has happened to it. -/
inductive Change (store : Store) : Store → Prop where
  /-- Nothing, as when an operation is refused. -/
  | nothing : Change store store
  | node {after : Store} {node : Node} : EntersNode store after node → Change store after
  | relationship {after : Store} {relationship : Relationship} :
    EntersRelationship store after relationship → Change store after
  | properties {id : NodeId} {node : Node} (properties : PropertyMap) :
    store.node? id = some node →
    Change store { store with nodes := store.nodes.insert id { node with properties } }
  | nodeGone {gone : NodeId} {node : Node} : store.node? gone = some node →
    Change store (store.deleteNode gone).2
  | relationshipGone (gone : RelationshipId) : Change store (store.deleteRelationship gone).2
  | counters (nextNode : NodeId) (nextRelationship : RelationshipId) :
    Change store (store.reserve nextNode nextRelationship)

/-- **An operation does one of these things**, whatever it restores. -/
theorem change_apply (store : Store) (operation : StoreOperation) :
    Change store (store.apply operation).2 := by
  cases operation with
  | createNode labels properties => exact .node (entersNode_createNode store labels properties)
  | createRelationship type start end_ properties =>
    rw [Store.apply]
    cases h : store.createRelationship type start end_ properties with
    | error error => exact .nothing
    | ok result => exact .relationship (entersRelationship_createRelationship h).1
  | setProperties id properties =>
    rw [Store.apply]
    cases h : store.setProperties id properties with
    | error error => exact .nothing
    | ok result =>
      obtain ⟨node, hnode, -, hafter⟩ := setProperties_eq_ok_iff.1 h
      show Change store result.2
      rw [hafter]
      exact .properties properties hnode
  | deleteNode id =>
    show Change store (store.deleteNode id).2
    cases h : store.node? id with
    | none => rw [deleteNode_of_node?_none h]; exact .nothing
    | some node => exact .nodeGone h
  | deleteRelationship id => exact .relationshipGone id
  | restoreNode node => exact .node (entersNode_restoreNode store node)
  | restoreRelationship relationship =>
    rw [Store.apply]
    cases h : store.restoreRelationship relationship with
    | error error => exact .nothing
    | ok after => exact .relationship (entersRelationship_restoreRelationship h)
  | reserve nextNode nextRelationship => exact .counters nextNode nextRelationship

/-! ## §7. Any operation, and runs. -/

theorem Integral.change {store after : Store} (hstore : Integral store)
    (h : Change store after) : Integral after := by
  cases h with
  | nothing => exact hstore
  | node henters => exact hstore.entersNode henters
  | relationship henters => exact hstore.entersRelationship henters
  | properties properties hnode => exact hstore.setProperties hnode properties
  | nodeGone hgone => exact hstore.deleteNode hgone
  | relationshipGone gone => exact hstore.deleteRelationship gone
  | counters nextNode nextRelationship => exact hstore.reserve nextNode nextRelationship

/-- **Every operation keeps a store integral**, whatever it restores. -/
theorem Integral.apply {store : Store} (hstore : Integral store) (operation : StoreOperation) :
    Integral (store.apply operation).2 :=
  hstore.change (change_apply store operation)

/-- **An operation that enters nothing under an id in use keeps a store
coherent.** -/
theorem Coherent.apply {store : Store} (hstore : Coherent store) {operation : StoreOperation}
    (huntangled : store.Untangled operation) : Coherent (store.apply operation).2 := by
  cases operation with
  | createNode labels properties =>
    exact hstore.entersNode (entersNode_createNode store labels properties) huntangled
  | createRelationship type start end_ properties =>
    cases h : store.createRelationship type start end_ properties with
    | error error => rw [Store.apply, h]; exact hstore
    | ok result =>
      obtain ⟨id, after⟩ := result
      rw [Store.apply, h]
      obtain ⟨henters, rfl⟩ := entersRelationship_createRelationship h
      exact hstore.entersRelationship henters (huntangled henters.danglingEnd?_eq_none)
  | setProperties id properties =>
    cases h : store.setProperties id properties with
    | error error => rw [Store.apply, h]; exact hstore
    | ok result =>
      obtain ⟨old, after⟩ := result
      rw [Store.apply, h]
      obtain ⟨node, hnode, -, rfl⟩ := setProperties_eq_ok_iff.1 h
      exact hstore.setProperties hnode properties
  | deleteNode id =>
    show Coherent (store.deleteNode id).2
    cases h : store.node? id with
    | none => rw [deleteNode_of_node?_none h]; exact hstore
    | some node => exact hstore.deleteNode h
  | deleteRelationship id => exact hstore.deleteRelationship id
  | restoreNode node => exact hstore.entersNode (entersNode_restoreNode store node) huntangled
  | restoreRelationship relationship =>
    cases h : store.restoreRelationship relationship with
    | error error => rw [Store.apply, h]; exact hstore
    | ok after =>
      rw [Store.apply, h]
      have henters := entersRelationship_restoreRelationship h
      exact hstore.entersRelationship henters (huntangled henters.danglingEnd?_eq_none)
  | reserve nextNode nextRelationship => exact hstore.reserve nextNode nextRelationship

/-- **An untangled run keeps a store coherent.** -/
theorem Coherent.run {operations : List StoreOperation} :
    ∀ {store : Store}, Coherent store → store.UntangledRun operations →
      Coherent (store.run operations).2 := by
  induction operations with
  | nil => intro store hstore _; exact hstore
  | cons operation rest ih =>
    intro store hstore hrun
    exact ih (hstore.apply hrun.1) hrun.2

theorem Reachable.coherent {store : Store} (h : store.Reachable) : Coherent store := by
  obtain ⟨operations, hrun, rfl⟩ := h
  exact coherent_empty.run hrun

/-! ## §8. The counters. -/

/-- **The counters only grow** while the ids last. -/
theorem counters_le_apply {store : Store} {operation : StoreOperation}
    (hfits : store.Fits operation) :
    store.nextNodeId ≤ (store.apply operation).2.nextNodeId
      ∧ store.nextRelationshipId ≤ (store.apply operation).2.nextRelationshipId := by
  cases operation with
  | createNode labels properties =>
    exact ⟨(entersNode_createNode store labels properties).nextNodeId_le hfits, Nat.le_refl _⟩
  | createRelationship type start end_ properties =>
    rw [Store.apply]
    cases h : store.createRelationship type start end_ properties with
    | error error => exact ⟨Nat.le_refl _, Nat.le_refl _⟩
    | ok result =>
      obtain ⟨henters, hid⟩ := entersRelationship_createRelationship h
      exact ⟨Nat.le_of_eq henters.nextNodeId.symm, henters.nextRelationshipId_le
        (hid ▸ hfits henters.danglingEnd?_eq_none)⟩
  | setProperties id properties =>
    rw [Store.apply]
    cases h : store.setProperties id properties with
    | error error => exact ⟨Nat.le_refl _, Nat.le_refl _⟩
    | ok result =>
      obtain ⟨node, -, -, hafter⟩ := setProperties_eq_ok_iff.1 h
      dsimp only
      rw [hafter]
      exact ⟨Nat.le_refl _, Nat.le_refl _⟩
  | deleteNode id =>
    obtain ⟨hnode, hrelationship⟩ := counters_deleteNode store id
    exact ⟨Nat.le_of_eq hnode.symm, Nat.le_of_eq hrelationship.symm⟩
  | deleteRelationship id =>
    obtain ⟨-, -, hnode, hrelationship⟩ := deleteRelationship_nodes store id
    exact ⟨Nat.le_of_eq hnode.symm, Nat.le_of_eq hrelationship.symm⟩
  | restoreNode node => exact ⟨Nat.le_max_left _ _, Nat.le_refl _⟩
  | restoreRelationship relationship =>
    rw [Store.apply]
    cases h : store.restoreRelationship relationship with
    | error error => exact ⟨Nat.le_refl _, Nat.le_refl _⟩
    | ok after =>
      have henters := entersRelationship_restoreRelationship h
      exact ⟨Nat.le_of_eq henters.nextNodeId.symm,
        henters.nextRelationshipId_le (hfits henters.danglingEnd?_eq_none)⟩
  | reserve nextNode nextRelationship => exact ⟨Nat.le_max_left _ _, Nat.le_max_left _ _⟩

end PropertyGraph.Store
