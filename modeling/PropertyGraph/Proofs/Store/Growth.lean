/-
  PropertyGraph.Proofs.Store.Growth
  ─────────────────────────────────
  **WHAT CREATION ADDS TO A STORE.**

  While the ids last, the counters are past every id in use and also past
  every id that an index lists, stale entries included (`Bounded`, kept by
  every operation that fits), and only restoring can put an entity under an id
  in use (`Bounded.untangledRun_iff`).  What is created is new to the maps and
  to the indices, and comes last wherever it is listed.
  `store.Extends after nodes relationships` says that of several new entities
  at once:

      after.allNodes    = store.allNodes ++ nodes
      after.leaving id  = store.leaving id ++ those of `relationships` from there
      …

  Nothing else differs, and the new ids are the next ones in order.
-/
import Mathlib.Data.List.Basic
import PropertyGraph.Proofs.Store.Reference

namespace PropertyGraph.Store

/-! ## §1. No id is ahead of its counter. -/

/-- The counters are past every id in use and past whatever the indices list. -/
structure Bounded (store : Store) : Prop extends Integral store where
  node_lt : ∀ {id node}, store.node? id = some node → id < store.nextNodeId
  relationship_lt : ∀ {id r}, store.relationship? id = some r → id < store.nextRelationshipId
  byStart_lt : ∀ {id key}, id ∈ idsUnder store.byStart key → id < store.nextRelationshipId
  byEnd_lt : ∀ {id key}, id ∈ idsUnder store.byEnd key → id < store.nextRelationshipId
  byLabel_lt : ∀ {id label}, id ∈ idsUnder store.byLabel label → id < store.nextNodeId

theorem bounded_empty : Bounded empty where
  toIntegral := coherent_empty.toIntegral
  node_lt h := nomatch h
  relationship_lt h := nomatch h
  byStart_lt h := nomatch h
  byEnd_lt h := nomatch h
  byLabel_lt h := nomatch h

/-- The counters are ids of 64 bits themselves, and past every id in use. -/
structure IdsFit (store : Store) : Prop where
  nextNodeId_pos : 0 < store.nextNodeId
  nextRelationshipId_pos : 0 < store.nextRelationshipId
  nextNodeId_lt : store.nextNodeId < UInt64.size
  nextRelationshipId_lt : store.nextRelationshipId < UInt64.size
  node_lt : ∀ node ∈ store.allNodes, node.id < store.nextNodeId
  relationship_lt : ∀ r ∈ store.allRelationships, r.id < store.nextRelationshipId

instance (store : Store) : Decidable store.IdsFit :=
  decidable_of_iff (0 < store.nextNodeId ∧ 0 < store.nextRelationshipId
      ∧ store.nextNodeId < UInt64.size ∧ store.nextRelationshipId < UInt64.size
      ∧ (∀ node ∈ store.allNodes, node.id < store.nextNodeId)
      ∧ ∀ r ∈ store.allRelationships, r.id < store.nextRelationshipId)
    ⟨fun ⟨h₁, h₂, h₃, h₄, h₅, h₆⟩ => ⟨h₁, h₂, h₃, h₄, h₅, h₆⟩,
      fun h => ⟨h.1, h.2, h.3, h.4, h.5, h.6⟩⟩

theorem idsFit_empty : IdsFit empty := by decide

section

variable {store after : Store}

/-- In a coherent store the indices list only what is there, and that is below
the counters. -/
theorem Coherent.bounded (h : Coherent store) (hids : store.IdsFit) : store.Bounded := by
  have hnode : ∀ {id node}, store.node? id = some node → id < store.nextNodeId := by
    intro id node hfound
    obtain ⟨hmem, rfl⟩ := h.node?_eq_some_iff.1 hfound
    exact hids.node_lt node hmem
  have hrelationship : ∀ {id r}, store.relationship? id = some r →
      id < store.nextRelationshipId := by
    intro id r hfound
    obtain ⟨hmem, rfl⟩ := h.relationship?_eq_some_iff.1 hfound
    exact hids.relationship_lt r hmem
  refine ⟨h.toIntegral, hnode, hrelationship, ?_, ?_, ?_⟩
  · intro id key hid
    obtain ⟨r, hr, -⟩ := h.of_byStart hid
    exact hrelationship hr
  · intro id key hid
    obtain ⟨r, hr, -⟩ := h.of_byEnd hid
    exact hrelationship hr
  · intro id label hid
    obtain ⟨node, hfound, -⟩ := h.of_byLabel hid
    exact hnode hfound

theorem Bounded.idsFit (h : Bounded store) (hnode : 0 < store.nextNodeId)
    (hrelationship : 0 < store.nextRelationshipId) (hnodeLt : store.nextNodeId < UInt64.size)
    (hrelationshipLt : store.nextRelationshipId < UInt64.size) : store.IdsFit where
  nextNodeId_pos := hnode
  nextRelationshipId_pos := hrelationship
  nextNodeId_lt := hnodeLt
  nextRelationshipId_lt := hrelationshipLt
  node_lt _ hmem := h.node_lt (h.mem_allNodes_iff.1 hmem)
  relationship_lt _ hmem := h.relationship_lt (h.mem_allRelationships_iff.1 hmem)

/-- The ends of a relationship are nodes, so the counter has passed them, too. -/
theorem Bounded.ends_lt (h : Bounded store) {id : RelationshipId} {r : Relationship}
    (hr : store.relationship? id = some r) :
    r.start < store.nextNodeId ∧ r.end < store.nextNodeId := by
  obtain ⟨start, hstart⟩ := h.start_exists hr
  obtain ⟨end_, hend⟩ := h.end_exists hr
  exact ⟨h.node_lt hstart, h.node_lt hend⟩

/-- What the counter shows is not in use. -/
theorem Bounded.node?_nextNodeId (h : Bounded store) : store.node? store.nextNodeId = none := by
  cases hfound : store.node? store.nextNodeId with
  | none => rfl
  | some node => exact absurd (h.node_lt hfound) (Nat.lt_irrefl _)

theorem Bounded.relationship?_nextRelationshipId (h : Bounded store) :
    store.relationship? store.nextRelationshipId = none := by
  cases hfound : store.relationship? store.nextRelationshipId with
  | none => rfl
  | some r => exact absurd (h.relationship_lt hfound) (Nat.lt_irrefl _)

/-- So an operation that restores nothing enters nothing under an id in use. -/
theorem Bounded.untangled (h : Bounded store) {operation : StoreOperation}
    (hordinary : operation.isRestoring = false) : store.Untangled operation := by
  cases operation with
  | createNode labels properties => exact h.node?_nextNodeId
  | createRelationship type start end_ properties =>
    exact fun _ => h.relationship?_nextRelationshipId
  | restoreNode | restoreRelationship => cases hordinary
  | _ => trivial

theorem Bounded.entersNode {node : Node} (h : Bounded store)
    (henters : EntersNode store after node) (hfits : node.id + 1 < UInt64.size) :
    Bounded after where
  toIntegral := h.toIntegral.entersNode henters
  node_lt hid := by
    rw [henters.node?] at hid
    split at hid
    next heq => exact heq ▸ henters.id_lt hfits
    next => exact Nat.lt_of_lt_of_le (h.node_lt hid) (henters.nextNodeId_le hfits)
  relationship_lt hid :=
    henters.nextRelationshipId ▸ h.relationship_lt (henters.relationship? _ ▸ hid)
  byStart_lt hid := henters.nextRelationshipId ▸ h.byStart_lt (henters.byStart ▸ hid)
  byEnd_lt hid := henters.nextRelationshipId ▸ h.byEnd_lt (henters.byEnd ▸ hid)
  byLabel_lt hid := by
    rcases (henters.byLabel _ _).1 hid with ⟨-, rfl⟩ | hold
    · exact henters.id_lt hfits
    · exact Nat.lt_of_lt_of_le (h.byLabel_lt hold) (henters.nextNodeId_le hfits)

theorem Bounded.entersRelationship {r : Relationship} (h : Bounded store)
    (henters : EntersRelationship store after r) (hfits : r.id + 1 < UInt64.size) :
    Bounded after where
  toIntegral := h.toIntegral.entersRelationship henters
  node_lt hid := henters.nextNodeId ▸ h.node_lt (henters.node? _ ▸ hid)
  relationship_lt hid := by
    rw [henters.relationship?] at hid
    split at hid
    next heq => exact heq ▸ henters.id_lt hfits
    next =>
      exact Nat.lt_of_lt_of_le (h.relationship_lt hid) (henters.nextRelationshipId_le hfits)
  byStart_lt hid := by
    rcases (henters.byStart _ _).1 hid with ⟨-, rfl⟩ | hold
    · exact henters.id_lt hfits
    · exact Nat.lt_of_lt_of_le (h.byStart_lt hold) (henters.nextRelationshipId_le hfits)
  byEnd_lt hid := by
    rcases (henters.byEnd _ _).1 hid with ⟨-, rfl⟩ | hold
    · exact henters.id_lt hfits
    · exact Nat.lt_of_lt_of_le (h.byEnd_lt hold) (henters.nextRelationshipId_le hfits)
  byLabel_lt hid := henters.nextNodeId ▸ h.byLabel_lt (henters.byLabel ▸ hid)

theorem Bounded.setProperties (h : Bounded store) {id : NodeId} {node : Node}
    (hnode : store.node? id = some node) (properties : PropertyMap) :
    Bounded { store with nodes := store.nodes.insert id { node with properties } } where
  toIntegral := h.toIntegral.setProperties hnode properties
  node_lt hid := by
    rw [node?_insert_properties] at hid
    split at hid
    next heq =>
      rw [heq]
      exact h.node_lt hnode
    next => exact h.node_lt hid
  relationship_lt := h.relationship_lt
  byStart_lt := h.byStart_lt
  byEnd_lt := h.byEnd_lt
  byLabel_lt := h.byLabel_lt

/-- A deletion only takes away, and leaves the counters alone. -/
theorem Bounded.deleteNode (h : Bounded store) (gone : NodeId) :
    Bounded (store.deleteNode gone).2 := by
  cases hgone : store.node? gone with
  | none => rwa [deleteNode_of_node?_none hgone]
  | some node =>
    obtain ⟨hnode, hrelationship⟩ := counters_deleteNode store gone
    refine ⟨h.toIntegral.deleteNode hgone, ?_, ?_, ?_, ?_, ?_⟩
    · intro id found hid
      rw [hnode]
      exact h.node_lt ((node?_deleteNode_eq_some_iff hgone).1 hid).2
    · intro id r hid
      rw [hrelationship]
      exact h.relationship_lt ((relationship?_deleteNode hgone).1 hid).1
    · intro id key hid
      rw [hrelationship]
      exact h.byStart_lt ((mem_byStart_deleteNode hgone).1 hid).2.1
    · intro id key hid
      rw [hrelationship]
      exact h.byEnd_lt ((mem_byEnd_deleteNode hgone).1 hid).2.1
    · intro id label hid
      rw [hnode]
      exact h.byLabel_lt ((mem_byLabel_deleteNode hgone).1 hid).1

theorem Bounded.deleteRelationship (h : Bounded store) (gone : RelationshipId) :
    Bounded (store.deleteRelationship gone).2 := by
  obtain ⟨-, hlabel, hnode, hrelationship⟩ := deleteRelationship_nodes store gone
  refine ⟨h.toIntegral.deleteRelationship gone, ?_, ?_, ?_, ?_, ?_⟩
  · intro id found hid
    rw [hnode]
    exact h.node_lt (node?_deleteRelationship store gone _ ▸ hid)
  · intro id r hid
    rw [hrelationship]
    exact h.relationship_lt (relationship?_deleteRelationship_eq_some_iff.1 hid).2
  · intro id key hid
    rw [hrelationship]
    exact h.byStart_lt (mem_byStart_deleteRelationship.1 hid).1
  · intro id key hid
    rw [hrelationship]
    exact h.byEnd_lt (mem_byEnd_deleteRelationship.1 hid).1
  · intro id label hid
    rw [hlabel] at hid
    rw [hnode]
    exact h.byLabel_lt hid

theorem Bounded.reserve (h : Bounded store) (nextNode : NodeId)
    (nextRelationship : RelationshipId) : Bounded (store.reserve nextNode nextRelationship) where
  toIntegral := h.toIntegral.reserve nextNode nextRelationship
  node_lt hid := Nat.lt_of_lt_of_le (h.node_lt hid) (Nat.le_max_left _ _)
  relationship_lt hid := Nat.lt_of_lt_of_le (h.relationship_lt hid) (Nat.le_max_left _ _)
  byStart_lt hid := Nat.lt_of_lt_of_le (h.byStart_lt hid) (Nat.le_max_left _ _)
  byEnd_lt hid := Nat.lt_of_lt_of_le (h.byEnd_lt hid) (Nat.le_max_left _ _)
  byLabel_lt hid := Nat.lt_of_lt_of_le (h.byLabel_lt hid) (Nat.le_max_left _ _)

/-- **Whatever an operation restores, it lists no id that the counter has not
passed**, while the ids last. -/
theorem Bounded.apply (h : Bounded store) {operation : StoreOperation}
    (hfits : store.Fits operation) : Bounded (store.apply operation).2 := by
  cases operation with
  | createNode labels properties =>
    exact h.entersNode (entersNode_createNode store labels properties) hfits
  | createRelationship type start end_ properties =>
    rw [Store.apply]
    cases hcreate : store.createRelationship type start end_ properties with
    | error error => exact h
    | ok result =>
      obtain ⟨henters, hid⟩ := entersRelationship_createRelationship hcreate
      exact h.entersRelationship henters (hid ▸ hfits henters.danglingEnd?_eq_none)
  | setProperties id properties =>
    rw [Store.apply]
    cases hset : store.setProperties id properties with
    | error error => exact h
    | ok result =>
      obtain ⟨node, hnode, -, hafter⟩ := setProperties_eq_ok_iff.1 hset
      show Bounded result.2
      rw [hafter]
      exact h.setProperties hnode properties
  | deleteNode gone => exact h.deleteNode gone
  | deleteRelationship gone => exact h.deleteRelationship gone
  | restoreNode node => exact h.entersNode (entersNode_restoreNode store node) hfits
  | restoreRelationship relationship =>
    rw [Store.apply]
    cases hrestore : store.restoreRelationship relationship with
    | error error => exact h
    | ok after =>
      have henters := entersRelationship_restoreRelationship hrestore
      exact h.entersRelationship henters (hfits henters.danglingEnd?_eq_none)
  | reserve nextNode nextRelationship => exact h.reserve nextNode nextRelationship

theorem Bounded.run {operations : List StoreOperation} : ∀ {store : Store},
    Bounded store → store.FitsRun operations → Bounded (store.run operations).2 := by
  induction operations with
  | nil => intro store h _; exact h
  | cons operation rest ih =>
    intro store h hfits
    exact ih (h.apply hfits.1) hfits.2

/-- The counters stay ids of 64 bits. -/
theorem counters_lt_apply {operation : StoreOperation} (hfits : store.Fits operation)
    (hnode : store.nextNodeId < UInt64.size)
    (hrelationship : store.nextRelationshipId < UInt64.size) :
    (store.apply operation).2.nextNodeId < UInt64.size
      ∧ (store.apply operation).2.nextRelationshipId < UInt64.size := by
  cases operation with
  | createNode labels properties => exact ⟨nextId_lt _, hrelationship⟩
  | createRelationship type start end_ properties =>
    rw [Store.apply, createRelationship]
    cases store.danglingEnd? start end_ with
    | some error => exact ⟨hnode, hrelationship⟩
    | none => exact ⟨hnode, nextId_lt _⟩
  | setProperties id properties =>
    rw [Store.apply, Store.setProperties]
    cases store.node? id <;> exact ⟨hnode, hrelationship⟩
  | deleteNode gone =>
    obtain ⟨hnextNode, hnextRelationship⟩ := counters_deleteNode store gone
    exact ⟨hnextNode ▸ hnode, hnextRelationship ▸ hrelationship⟩
  | deleteRelationship gone =>
    obtain ⟨-, -, hnextNode, hnextRelationship⟩ := deleteRelationship_nodes store gone
    exact ⟨hnextNode ▸ hnode, hnextRelationship ▸ hrelationship⟩
  | restoreNode node => exact ⟨Nat.max_lt.2 ⟨hnode, nextId_lt _⟩, hrelationship⟩
  | restoreRelationship relationship =>
    rw [Store.apply, restoreRelationship]
    cases store.danglingEnd? relationship.start relationship.end with
    | some error => exact ⟨hnode, hrelationship⟩
    | none => exact ⟨hnode, Nat.max_lt.2 ⟨hrelationship, nextId_lt _⟩⟩
  | reserve nextNode nextRelationship =>
    exact ⟨Nat.max_lt.2 ⟨hnode, hfits.1⟩, Nat.max_lt.2 ⟨hrelationship, hfits.2⟩⟩

/-- So far the ids have lasted. -/
structure Ahead (store : Store) : Prop where
  bounded : store.Bounded
  idsFit : store.IdsFit

theorem ahead_empty : Ahead empty := ⟨bounded_empty, idsFit_empty⟩

theorem Coherent.ahead (h : Coherent store) (hids : store.IdsFit) : store.Ahead :=
  ⟨h.bounded hids, hids⟩

theorem Ahead.apply (h : Ahead store) {operation : StoreOperation}
    (hfits : store.Fits operation) : Ahead (store.apply operation).2 := by
  have hbounded := h.bounded.apply hfits
  obtain ⟨hnode, hrelationship⟩ := counters_le_apply hfits
  obtain ⟨hnodeLt, hrelationshipLt⟩ :=
    counters_lt_apply hfits h.idsFit.nextNodeId_lt h.idsFit.nextRelationshipId_lt
  exact ⟨hbounded, hbounded.idsFit (Nat.lt_of_lt_of_le h.idsFit.nextNodeId_pos hnode)
    (Nat.lt_of_lt_of_le h.idsFit.nextRelationshipId_pos hrelationship) hnodeLt hrelationshipLt⟩

/-- **A run that keeps to the ids of 64 bits leaves the counters past all ids.** -/
theorem Ahead.run {operations : List StoreOperation} : ∀ {store : Store},
    Ahead store → store.FitsRun operations → Ahead (store.run operations).2 := by
  induction operations with
  | nil => intro store h _; exact h
  | cons operation rest ih =>
    intro store h hfits
    exact ih (h.apply hfits.1) hfits.2

/-- **While the ids last, only restoring can tangle a run**: what is created
comes under an id that is not in use. -/
theorem Bounded.untangledRun_iff {operations : List StoreOperation} : ∀ {store : Store},
    Bounded store → store.FitsRun operations →
    (store.UntangledRun operations ↔ store.RestoresUnused operations) := by
  induction operations with
  | nil => exact fun _ _ => Iff.rfl
  | cons operation rest ih =>
    intro store h hfits
    refine and_congr ⟨fun huntangled _ => huntangled, fun hrestoring => ?_⟩
      (ih (h.apply hfits.1) hfits.2)
    cases hordinary : operation.isRestoring with
    | true => exact hrestoring hordinary
    | false => exact h.untangled hordinary

theorem reachable_of_restoresUnused {operations : List StoreOperation}
    (hfits : empty.FitsRun operations) (hunused : empty.RestoresUnused operations) :
    Reachable (empty.run operations).2 :=
  ⟨operations, (bounded_empty.untangledRun_iff hfits).2 hunused, rfl⟩

/-! ## §2. A fresh id comes last. -/

/-- Ids that ascend, with a greater one perhaps added, have it at the end. -/
theorem ids_eq_append {old new : List Nat} {id : Nat} {p : Prop} [Decidable p]
    (hold : old.Pairwise (fun a b => compare a b = .lt))
    (hnew : new.Pairwise (fun a b => compare a b = .lt)) (hlt : ∀ other ∈ old, other < id)
    (hmem : ∀ other, other ∈ new ↔ (p ∧ other = id) ∨ other ∈ old) :
    new = old ++ if p then [id] else [] := by
  refine eq_of_mem_iff hnew ?_ (fun other => ?_)
  · rw [List.pairwise_append]
    refine ⟨hold, ?_, ?_⟩
    · split <;> simp
    · intro a ha b hb
      split at hb
      · rw [List.mem_singleton.1 hb]
        exact Nat.compare_eq_lt.2 (hlt a ha)
      · exact absurd hb List.not_mem_nil
  · rw [hmem, List.mem_append]
    split <;> simp_all [or_comm]

/-- A look-up of ids, with a greater one perhaps added that stands for
`value`, has `value` at the end. -/
theorem filterMap_append_fresh {α : Type} {find find' : Nat → Option α} {old : List Nat}
    {id : Nat} {value : α} {keep : α → Bool} {p : Prop} [Decidable p]
    (hlt : ∀ other ∈ old, other < id) (hkeep : keep value = true ↔ p)
    (hfind : ∀ other, find' other = if other = id then some value else find other) :
    (old ++ if p then [id] else []).filterMap find'
      = old.filterMap find ++ [value].filter keep := by
  have hold : old.filterMap find' = old.filterMap find := by
    refine List.filterMap_congr (fun other hother => ?_)
    rw [hfind, if_neg (Nat.ne_of_lt (hlt other hother))]
  have hid : find' id = some value := by rw [hfind, if_pos rfl]
  rw [List.filterMap_append, hold]
  by_cases h : p
  · simp [h, hkeep.2 h, hid]
  · have hnot : keep value = false := by
      rw [← Bool.not_eq_true]
      exact fun heq => h (hkeep.1 heq)
    simp [h, hnot]

/-- `after` is `store` with new entities under the next ids. -/
structure Extends (store after : Store) (nodes : List Node) (relationships : List Relationship) :
    Prop where
  allNodes : after.allNodes = store.allNodes ++ nodes
  allRelationships : after.allRelationships = store.allRelationships ++ relationships
  leaving : ∀ id, after.leaving id
    = store.leaving id ++ relationships.filter (fun r => r.startsFrom id)
  entering : ∀ id, after.entering id
    = store.entering id ++ relationships.filter (fun r => r.endsAt id)
  labelled : ∀ label, after.labelled label
    = store.labelled label ++ nodes.filter (fun node => node.hasLabel label)
  nodeIds : nodes.map (·.id) = List.range' store.nextNodeId nodes.length
  relationshipIds : relationships.map (·.id)
    = List.range' store.nextRelationshipId relationships.length
  nextNodeId : after.nextNodeId = store.nextNodeId + nodes.length
  nextRelationshipId : after.nextRelationshipId
    = store.nextRelationshipId + relationships.length

theorem Extends.refl (store : Store) : store.Extends store [] [] where
  allNodes := (List.append_nil _).symm
  allRelationships := (List.append_nil _).symm
  leaving _ := (List.append_nil _).symm
  entering _ := (List.append_nil _).symm
  labelled _ := (List.append_nil _).symm
  nodeIds := rfl
  relationshipIds := rfl
  nextNodeId := rfl
  nextRelationshipId := rfl

theorem Extends.trans {last : Store} {nodes more : List Node}
    {relationships others : List Relationship} (h : store.Extends after nodes relationships)
    (h' : after.Extends last more others) :
    store.Extends last (nodes ++ more) (relationships ++ others) where
  allNodes := by rw [h'.allNodes, h.allNodes, List.append_assoc]
  allRelationships := by rw [h'.allRelationships, h.allRelationships, List.append_assoc]
  leaving id := by rw [h'.leaving, h.leaving, List.filter_append, List.append_assoc]
  entering id := by rw [h'.entering, h.entering, List.filter_append, List.append_assoc]
  labelled label := by rw [h'.labelled, h.labelled, List.filter_append, List.append_assoc]
  nodeIds := by
    rw [List.map_append, h.nodeIds, h'.nodeIds, h.nextNodeId, List.length_append,
      ← List.range'_append_1]
  relationshipIds := by
    rw [List.map_append, h.relationshipIds, h'.relationshipIds, h.nextRelationshipId,
      List.length_append, ← List.range'_append_1]
  nextNodeId := by rw [h'.nextNodeId, h.nextNodeId, List.length_append, Nat.add_assoc]
  nextRelationshipId := by
    rw [h'.nextRelationshipId, h.nextRelationshipId, List.length_append, Nat.add_assoc]

/-- The ids between the old counter and the new one are in use. -/
theorem Extends.hasNode {nodes : List Node} {relationships : List Relationship} {id : NodeId}
    (h : store.Extends after nodes relationships) (hafter : Integral after)
    (hle : store.nextNodeId ≤ id) (hlt : id < after.nextNodeId) : after.hasNode id = true := by
  have hid : id ∈ nodes.map (·.id) := by
    rw [h.nodeIds, List.mem_range'_1, ← h.nextNodeId]
    exact ⟨hle, hlt⟩
  obtain ⟨node, hnode, rfl⟩ := List.mem_map.1 hid
  have hall : node ∈ after.allNodes := by
    rw [h.allNodes]
    exact List.mem_append_right _ hnode
  exact hasNode_eq_true_iff.2 ⟨node, hafter.mem_allNodes_iff.1 hall⟩

/-- **A created node is the one new entity.** -/
theorem Bounded.extends_createNode (h : Bounded store)
    (hfits : store.nextNodeId + 1 < UInt64.size) (labels : List Label)
    (properties : PropertyMap) :
    store.Extends (store.createNode labels properties).2
      [⟨store.nextNodeId, SortedSet.ofList labels, properties⟩] [] := by
  have henters := entersNode_createNode store labels properties
  refine
    { allNodes := SortedMap.values_insert_of_forall_lt fun hid =>
        Nat.compare_eq_lt.2 (h.node_lt hid)
      allRelationships := (List.append_nil _).symm
      leaving := fun _ => (List.append_nil _).symm
      entering := fun _ => (List.append_nil _).symm
      labelled := fun label => ?_
      nodeIds := rfl
      relationshipIds := rfl
      nextNodeId := nextId_eq hfits
      nextRelationshipId := rfl }
  unfold labelled
  rw [ids_eq_append (pairwise_idsUnder store.byLabel label) (pairwise_idsUnder _ _)
    (fun _ hid => h.byLabel_lt hid) (fun id => henters.byLabel id label)]
  exact filterMap_append_fresh (fun _ hid => h.byLabel_lt hid) Iff.rfl henters.node?

/-- **A created relationship is the one new entity.** -/
theorem Bounded.extends_createRelationship (h : Bounded store)
    (hfits : store.nextRelationshipId + 1 < UInt64.size) {type : RelationshipType}
    {start end_ : NodeId} {properties : PropertyMap} {id : RelationshipId}
    (hcreate : store.createRelationship type start end_ properties = .ok (id, after)) :
    store.Extends after [] [⟨store.nextRelationshipId, type, start, end_, properties⟩] := by
  obtain ⟨henters, rfl⟩ := entersRelationship_createRelationship hcreate
  have hlater : after.nextRelationshipId = store.nextRelationshipId + 1 := by
    unfold createRelationship at hcreate
    split at hcreate
    next => cases hcreate
    next =>
      rw [← (Prod.mk.inj (Except.ok.inj hcreate)).2]
      exact nextId_eq hfits
  have hmap : after.relationships = store.relationships.insert store.nextRelationshipId
      ⟨store.nextRelationshipId, type, start, end_, properties⟩ := by
    apply SortedMap.ext_find?
    intro sought
    rw [SortedMap.find?_insert_eq]
    exact henters.relationship? sought
  refine
    { allNodes := ?_
      allRelationships := ?_
      leaving := fun key => ?_
      entering := fun key => ?_
      labelled := fun label => ?_
      nodeIds := rfl
      relationshipIds := rfl
      nextNodeId := henters.nextNodeId
      nextRelationshipId := hlater }
  · rw [Store.allNodes, henters.nodes, List.append_nil]
    rfl
  · rw [Store.allRelationships, hmap]
    exact SortedMap.values_insert_of_forall_lt fun hid =>
      Nat.compare_eq_lt.2 (h.relationship_lt hid)
  · unfold leaving
    rw [ids_eq_append (pairwise_idsUnder store.byStart key) (pairwise_idsUnder _ _)
      (fun _ hid => h.byStart_lt hid) (fun other => henters.byStart other key)]
    refine filterMap_append_fresh (fun _ hid => h.byStart_lt hid) ?_ henters.relationship?
    rw [Relationship.startsFrom, beq_iff_eq, eq_comm]
  · unfold entering
    rw [ids_eq_append (pairwise_idsUnder store.byEnd key) (pairwise_idsUnder _ _)
      (fun _ hid => h.byEnd_lt hid) (fun other => henters.byEnd other key)]
    refine filterMap_append_fresh (fun _ hid => h.byEnd_lt hid) ?_ henters.relationship?
    rw [Relationship.endsAt, beq_iff_eq, eq_comm]
  · rw [labelled, labelled, henters.byLabel, List.filter_nil, List.append_nil]
    exact List.filterMap_congr (fun id _ => henters.node? id)

end

end PropertyGraph.Store
