/-
  PropertyGraph.Proofs.Session.Removal
  ────────────────────────────────────
  **TAKING ENTITIES OUT OF A STORE.**

  Deleting entities one after the other is a matter of cascades: a node takes
  relationships with it that come later in the list, and a relationship may go
  before or after its ends.  In a coherent store none of this can be seen in
  the end.  What is left are the entities that are not named, apart from the
  relationships that touch a named node (`Store.Without`):

      without_deleteEntity        — one entity
      without_foldl_deleteEntity  — any list of entities

  So order and repetitions do not count (`Without.sameAs`), and nothing is
  left for a second time (`Without.foldl_deleteEntity_again`).
-/
import Mathlib.Data.List.Basic
import PropertyGraph.Proofs.Session.Effects
import PropertyGraph.Proofs.Store.Reference

namespace PropertyGraph

open Session

/-! ## §1. What goes. -/

/-- The relationship is named, or a node at one of its ends is. -/
def Relationship.GoesWith (r : Relationship) (named : EntityRef → Prop) : Prop :=
  named (.relationship r.id) ∨ named (.node r.start) ∨ named (.node r.end)

instance (r : Relationship) (named : EntityRef → Prop) [DecidablePred named] :
    Decidable (r.GoesWith named) :=
  inferInstanceAs (Decidable (_ ∨ _ ∨ _))

theorem Relationship.goesWith_congr {named more : EntityRef → Prop}
    (h : ∀ ref, more ref ↔ named ref) (r : Relationship) :
    r.GoesWith more ↔ r.GoesWith named := by
  simp only [GoesWith, h]

namespace Store

/-- `after` is `store` without the named nodes and all relationships that go
with what is named, and its indices are exact.  The rest is as it was. -/
structure Without (store after : Store) (named : EntityRef → Prop) [DecidablePred named] :
    Prop where
  coherent : Coherent after
  allNodes : after.allNodes = store.allNodes.filter (fun node => ¬ named (.node node.id))
  allRelationships :
    after.allRelationships = store.allRelationships.filter (fun r => ¬ r.GoesWith named)
  nextNodeId : after.nextNodeId = store.nextNodeId
  nextRelationshipId : after.nextRelationshipId = store.nextRelationshipId

section

variable {store after last : Store} {named more : EntityRef → Prop} [DecidablePred named]
  [DecidablePred more]

theorem Without.congr (h : store.Without after named) (hiff : ∀ ref, more ref ↔ named ref) :
    store.Without after more where
  coherent := h.coherent
  allNodes := by
    rw [h.allNodes]
    exact List.filter_congr (fun node _ => decide_eq_decide.2 (not_congr (hiff _).symm))
  allRelationships := by
    rw [h.allRelationships]
    exact List.filter_congr (fun r _ =>
      decide_eq_decide.2 (not_congr (r.goesWith_congr hiff).symm))
  nextNodeId := h.nextNodeId
  nextRelationshipId := h.nextRelationshipId

/-- Nothing is named. -/
theorem Coherent.without_none (h : Coherent store) (hnone : ∀ ref, ¬ named ref) :
    store.Without store named where
  coherent := h
  allNodes := (List.filter_eq_self.2 (fun node _ => decide_eq_true (hnone _))).symm
  allRelationships := by
    refine (List.filter_eq_self.2 (fun r _ => decide_eq_true ?_)).symm
    rintro (hgone | hgone | hgone) <;> exact hnone _ hgone
  nextNodeId := rfl
  nextRelationshipId := rfl

/-- First the one, then the other. -/
theorem Without.trans (h : store.Without after named) (h' : after.Without last more) :
    store.Without last (fun ref => named ref ∨ more ref) where
  coherent := h'.coherent
  allNodes := by
    rw [h'.allNodes, h.allNodes, List.filter_filter]
    refine List.filter_congr (fun node _ =>
      (Bool.decide_and _ _).symm.trans (decide_eq_decide.2 ?_))
    rw [not_or, and_comm]
  allRelationships := by
    rw [h'.allRelationships, h.allRelationships, List.filter_filter]
    refine List.filter_congr (fun r _ =>
      (Bool.decide_and _ _).symm.trans (decide_eq_decide.2 ?_))
    -- it stays exactly if neither takes it along
    unfold Relationship.GoesWith
    grind
  nextNodeId := h'.nextNodeId.trans h.nextNodeId
  nextRelationshipId := h'.nextRelationshipId.trans h.nextRelationshipId

/-- **The same is left**, whichever way it was reached. -/
theorem Without.sameAs (h : store.Without after named) (h' : store.Without last named) :
    after.SameAs last := by
  apply h.coherent.sameAs h'.coherent
  apply h.coherent.toIntegral.plain_eq h'.coherent.toIntegral
  · rw [h.allNodes, h'.allNodes]
  · rw [h.allRelationships, h'.allRelationships]
  · rw [h.nextNodeId, h'.nextNodeId]
  · rw [h.nextRelationshipId, h'.nextRelationshipId]

/-- What is found afterwards was there before and is not named. -/
theorem Without.node?_eq_some_iff (h : store.Without after named) (hstore : Integral store)
    {id : NodeId} {node : Node} :
    after.node? id = some node ↔ store.node? id = some node ∧ ¬ named (.node id) := by
  rw [h.coherent.toIntegral.node?_eq_some_iff, hstore.node?_eq_some_iff, h.allNodes,
    List.mem_filter, decide_eq_true_eq]
  constructor
  · rintro ⟨⟨hmem, hnot⟩, rfl⟩
    exact ⟨⟨hmem, rfl⟩, hnot⟩
  · rintro ⟨⟨hmem, rfl⟩, hnot⟩
    exact ⟨⟨hmem, hnot⟩, rfl⟩

theorem Without.relationship?_eq_some_iff (h : store.Without after named)
    (hstore : Integral store) {id : RelationshipId} {r : Relationship} :
    after.relationship? id = some r ↔ store.relationship? id = some r ∧ ¬ r.GoesWith named := by
  rw [h.coherent.toIntegral.relationship?_eq_some_iff, hstore.relationship?_eq_some_iff,
    h.allRelationships, List.mem_filter, decide_eq_true_eq]
  exact and_right_comm

/-- **How many there are less.** -/
theorem Without.counts (h : store.Without after named) :
    store.nodeCount - after.nodeCount
        = (store.allNodes.filter (fun node => named (.node node.id))).length
      ∧ store.relationshipCount - after.relationshipCount
        = (store.allRelationships.filter (fun r => r.GoesWith named)).length := by
  have hnodes : store.nodeCount = store.allNodes.length := SortedMap.size_eq_length_values _
  have hnodes' : after.nodeCount = after.allNodes.length := SortedMap.size_eq_length_values _
  have hrelationships : store.relationshipCount = store.allRelationships.length :=
    SortedMap.size_eq_length_values _
  have hrelationships' : after.relationshipCount = after.allRelationships.length :=
    SortedMap.size_eq_length_values _
  -- what is left and what is gone make up the whole
  have hsplit := store.allNodes.length_eq_length_filter_add (fun node => named (.node node.id))
  have hsplit' := store.allRelationships.length_eq_length_filter_add (fun r => r.GoesWith named)
  simp only [← decide_not] at hsplit hsplit'
  rw [hnodes, hnodes', hrelationships, hrelationships', h.allNodes, h.allRelationships]
  omega

end

/-! ## §2. One entity. -/

variable {store : Store}

theorem node?_deleteEntity_eq_some_iff {ref : EntityRef} {id : NodeId} {node : Node} :
    (deleteEntity store ref).node? id = some node
      ↔ store.node? id = some node ∧ EntityRef.node id ≠ ref := by
  cases ref with
  | node gone =>
    have hne : EntityRef.node id ≠ .node gone ↔ id ≠ gone := by
      rw [ne_eq, EntityRef.node.injEq]
    show (store.deleteNode gone).2.node? id = some node ↔ _
    cases hgone : store.node? gone with
    | none =>
      rw [deleteNode_of_node?_none hgone, hne]
      refine ⟨fun h => ⟨h, ?_⟩, And.left⟩
      rintro rfl
      rw [h] at hgone
      cases hgone
    | some old => rw [node?_deleteNode_eq_some_iff hgone, hne, and_comm]
  | relationship gone =>
    show (store.deleteRelationship gone).2.node? id = some node ↔ _
    rw [node?_deleteRelationship]
    exact ⟨fun h => ⟨h, nofun⟩, And.left⟩

/-- In a coherent store everything that touches a node goes with it. -/
theorem Coherent.relationship?_deleteEntity_eq_some_iff (h : Coherent store) {ref : EntityRef}
    {id : RelationshipId} {r : Relationship} :
    (deleteEntity store ref).relationship? id = some r
      ↔ store.relationship? id = some r ∧ ¬ r.GoesWith (· = ref) := by
  unfold Relationship.GoesWith
  cases ref with
  | node gone =>
    have htouches : r.touches gone = true ↔ r.start = gone ∨ r.end = gone := by
      rw [Relationship.touches, Bool.or_eq_true, Relationship.startsFrom, Relationship.endsAt,
        beq_iff_eq, beq_iff_eq]
    simp only [reduceCtorEq, EntityRef.node.injEq, false_or, ← htouches]
    show (store.deleteNode gone).2.relationship? id = some r ↔ _
    cases hgone : store.node? gone with
    | some node =>
      rw [relationship?_deleteNode hgone]
      exact and_congr_right (fun hr => not_congr (h.listedAt_iff hr))
    | none =>
      rw [deleteNode_of_node?_none hgone]
      refine ⟨fun hr => ⟨hr, ?_⟩, And.left⟩
      -- a relationship never touches a node that is not there
      rw [htouches]
      rintro (rfl | rfl)
      · obtain ⟨node, hnode⟩ := h.start_exists hr
        rw [hnode] at hgone
        cases hgone
      · obtain ⟨node, hnode⟩ := h.end_exists hr
        rw [hnode] at hgone
        cases hgone
  | relationship gone =>
    simp only [reduceCtorEq, EntityRef.relationship.injEq, or_false]
    show (store.deleteRelationship gone).2.relationship? id = some r ↔ _
    rw [relationship?_deleteRelationship_eq_some_iff, and_comm]
    refine and_congr_right (fun hr => ?_)
    have hid : r.id = id := h.relationship_id hr
    rw [hid]

theorem Coherent.deleteEntity (h : Coherent store) (ref : EntityRef) :
    Coherent (deleteEntity store ref) := by
  cases ref with
  | node gone =>
    have huntangled : store.Untangled (.deleteNode gone) := trivial
    exact h.apply huntangled
  | relationship gone => exact h.deleteRelationship gone

/-- **One entity is deleted.** -/
theorem Coherent.without_deleteEntity (h : Coherent store) (ref : EntityRef) :
    store.Without (Session.deleteEntity store ref) (· = ref) := by
  have hafter := h.deleteEntity ref
  have hnodes : (Session.deleteEntity store ref).nodes
      = store.nodes.filterValues (fun node => ¬ EntityRef.node node.id = ref) := by
    refine SortedMap.eq_filterValues (fun id node => ?_)
    rw [decide_eq_true_eq]
    refine node?_deleteEntity_eq_some_iff.trans (and_congr_right (fun hnode => ?_))
    rw [h.node_id hnode]
  have hrelationships : (Session.deleteEntity store ref).relationships
      = store.relationships.filterValues (fun r => ¬ r.GoesWith (· = ref)) := by
    refine SortedMap.eq_filterValues (fun id r => ?_)
    rw [decide_eq_true_eq]
    exact h.relationship?_deleteEntity_eq_some_iff
  have hcounters : (Session.deleteEntity store ref).nextNodeId = store.nextNodeId
      ∧ (Session.deleteEntity store ref).nextRelationshipId = store.nextRelationshipId := by
    cases ref with
    | node gone => exact counters_deleteNode store gone
    | relationship gone => exact (deleteRelationship_nodes store gone).2.2
  exact
    { coherent := hafter
      allNodes := by
        unfold Store.allNodes
        rw [hnodes, SortedMap.values_filterValues]
      allRelationships := by
        unfold Store.allRelationships
        rw [hrelationships, SortedMap.values_filterValues]
      nextNodeId := hcounters.1
      nextRelationshipId := hcounters.2 }

/-! ## §3. Many entities. -/

/-- **Entities are deleted one after the other**, with cascades in between. -/
theorem Coherent.without_foldl_deleteEntity (gone : List EntityRef) : ∀ {store : Store},
    Coherent store → store.Without (gone.foldl Session.deleteEntity store) (· ∈ gone) := by
  induction gone with
  -- each store on the way is coherent, so every cascade takes all it should
  | nil => exact fun h => h.without_none (fun _ => List.not_mem_nil)
  | cons ref rest ih =>
    intro store h
    exact ((h.without_deleteEntity ref).trans (ih (h.deleteEntity ref))).congr
      (fun _ => List.mem_cons)

/-- What is not there is not deleted. -/
theorem deleteEntity_of_absent {ref : EntityRef}
    (hnode : ∀ id, ref = .node id → store.node? id = none)
    (hrelationship : ∀ id, ref = .relationship id → store.relationship? id = none) :
    Session.deleteEntity store ref = store := by
  cases ref with
  | node id =>
    show (store.deleteNode id).2 = store
    rw [deleteNode_of_node?_none (hnode id rfl)]
  | relationship id =>
    show (store.deleteRelationship id).2 = store
    unfold deleteRelationship
    rw [hrelationship id rfl]

/-- **Nothing is left of what is named**, so deleting it again does nothing. -/
theorem Without.foldl_deleteEntity_again {after : Store} {named : EntityRef → Prop}
    [DecidablePred named] (h : store.Without after named) (hstore : Integral store)
    {gone : List EntityRef} (hnamed : ∀ ref ∈ gone, named ref) :
    gone.foldl Session.deleteEntity after = after := by
  induction gone with
  | nil => rfl
  | cons ref rest ih =>
    obtain ⟨hfirst, hrest⟩ := List.forall_mem_cons.1 hnamed
    -- the store does not change on the way, so the rest begins with it again
    have hsame : Session.deleteEntity after ref = after := by
      apply deleteEntity_of_absent
      · rintro id rfl
        refine Option.eq_none_iff_forall_ne_some.2 (fun node hnode => ?_)
        exact ((h.node?_eq_some_iff hstore).1 hnode).2 hfirst
      · rintro id rfl
        refine Option.eq_none_iff_forall_ne_some.2 (fun r hr => ?_)
        obtain ⟨hold, hnot⟩ := (h.relationship?_eq_some_iff hstore).1 hr
        have hid : r.id = id := hstore.relationship_id hold
        exact hnot (.inl (hid ▸ hfirst))
    rw [List.foldl_cons, hsame]
    exact ih hrest

end Store

end PropertyGraph
