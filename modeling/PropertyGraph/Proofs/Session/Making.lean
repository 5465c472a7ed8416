/-
  PropertyGraph.Proofs.Session.Making
  ───────────────────────────────────
  **WHAT IS MADE IS WHAT WAS PLANNED.**

  The making walks a chain two positions at a time where it meets a
  relationship: the node behind is resolved first, then the relationship is
  drawn.  So nodes are ahead of relationships for a moment, and the invariant
  `Made store items n r creation` keeps two positions: the nodes of positions
  below `n` are there, and the relationships of positions below `r`.  The store
  has room for all of them, so each comes under a fresh id.

      Made.resolve   n ↦ n + 1
      Made.connect   r ↦ r + 1,  because the nodes at its ends are there
      Made.steps     a chain that can be made, to its end, without a fault
      Made.elements  a whole pattern
-/
import PropertyGraph.Proofs.Session.Plan
import PropertyGraph.Proofs.Store.Growth

namespace PropertyGraph.Creation

open PropertyGraph.Query

/-! ## §1. The invariant. -/

/-- The nodes of the first `n` positions and the relationships of the first
`r` have been made, and nothing else has. -/
structure Made (store : Store) (items : PatternElement PropertyMap) (n r : Nat)
    (creation : Creation) : Prop where
  room : Room store items
  bounded : creation.store.Bounded
  coherent : store.Coherent → creation.store.Coherent
  grown : store.Extends creation.store (plannedNodes items store.nextNodeId n)
    (plannedRelationships items store.nextNodeId store.nextRelationshipId r)
  vars : ∀ var, creation.vars.find? var
    = if firstNamed items var < n
      then some (store.nextNodeId + (founders items (firstNamed items var)).length) else none
  summary : creation.summary
    = ⟨(founders items n).length, (joins items store.nextNodeId r).length⟩

section

variable {store : Store} {items : PatternElement PropertyMap} {n r i : Nat} {creation : Creation}

theorem made_start (h : store.Bounded) (hroom : Room store items) :
    Made store items 0 0 (start store) where
  room := hroom
  bounded := h
  coherent := id
  grown := Store.Extends.refl store
  vars _ := rfl
  summary := rfl

theorem Made.nextNodeId (h : Made store items n r creation) :
    creation.store.nextNodeId = store.nextNodeId + (founders items n).length := by
  rw [h.grown.nextNodeId, length_plannedNodes]

theorem Made.nextRelationshipId (h : Made store items n r creation) :
    creation.store.nextRelationshipId
      = store.nextRelationshipId + (joins items store.nextNodeId r).length := by
  rw [h.grown.nextRelationshipId, length_plannedRelationships]

/-- The node of a position that has been passed is there. -/
theorem Made.hasNode {descriptor : NodePattern PropertyMap} (h : Made store items n r creation)
    (hat : nodeAt? items i = some descriptor) (hlt : i < n) :
    creation.store.hasNode (nodeId items store.nextNodeId i) = true := by
  refine h.grown.hasNode h.bounded.toIntegral (Nat.le_add_right _ _) ?_
  obtain ⟨found, hfound⟩ := founder?_origin hat
  have hcount := length_founders_lt hfound (Nat.lt_of_le_of_lt (origin_le hat) hlt)
  rw [h.nextNodeId]
  exact Nat.add_lt_add_left hcount _

/-- The counters have not come to their end where something is still asked
for. -/
theorem Made.node_fits {descriptor : NodePattern PropertyMap}
    (h : Made store items n r creation) (hfounder : founder? items n = some descriptor)
    (hlt : n < items.length) : creation.store.nextNodeId + 1 < UInt64.size := by
  rw [h.nextNodeId]
  exact Nat.lt_of_le_of_lt (Nat.add_le_add_left (length_founders_lt hfounder hlt) _) h.room.nodes

theorem Made.relationship_fits {join : RelationshipId → Relationship}
    (h : Made store items n r creation) (hjoin : join? items store.nextNodeId r = some join)
    (hlt : r < items.length) : creation.store.nextRelationshipId + 1 < UInt64.size := by
  rw [h.nextRelationshipId]
  exact Nat.lt_of_le_of_lt (Nat.add_le_add_left (length_joins_lt hjoin hlt) _)
    h.room.relationships

/-! ## §2. Positions of the other kind. -/

/-- A variable that is first given to a node elsewhere does not notice the
position. -/
theorem firstNamed_lt_succ_iff {var : String} (hne : firstNamed items var ≠ n) :
    firstNamed items var < n + 1 ↔ firstNamed items var < n := by
  omega

theorem firstNamed_ne {var : String} (hlt : n < items.length)
    (hnot : ∀ descriptor, nodeAt? items n = some descriptor → descriptor.var ≠ some var) :
    firstNamed items var ≠ n := by
  rintro rfl
  obtain ⟨found, hfound, hvar⟩ := nodeAt?_firstNamed hlt
  exact hnot found hfound hvar

theorem Made.passRelationship {descriptor : RelationshipPattern PropertyMap}
    (h : Made store items n r creation) (hat : items[n]? = some (.relationship descriptor)) :
    Made store items (n + 1) r creation := by
  have hno : nodeAt? items n = none := by rw [nodeAt?, hat]
  have hfounders : founders items (n + 1) = founders items n := by
    simp [founders_succ, founder?, hno]
  refine ⟨h.room, h.bounded, h.coherent, ?_, ?_, ?_⟩
  · rw [plannedNodes, hfounders]
    exact h.grown
  · intro var
    have hne : firstNamed items var ≠ n :=
      firstNamed_ne (List.getElem?_eq_some_iff.1 hat).1 (fun found hfound => by simp [hno] at hfound)
    rw [h.vars]
    simp only [firstNamed_lt_succ_iff hne]
  · rw [hfounders]
    exact h.summary

theorem Made.passNode {descriptor : NodePattern PropertyMap}
    (h : Made store items n r creation) (hat : nodeAt? items r = some descriptor) :
    Made store items n (r + 1) creation := by
  have hno : join? items store.nextNodeId r = none := by
    rw [join?, nodeAt?_eq_some_iff.1 hat]
  have hjoins : joins items store.nextNodeId (r + 1) = joins items store.nextNodeId r := by
    simp [joins_succ, hno]
  refine ⟨h.room, h.bounded, h.coherent, ?_, h.vars, ?_⟩
  · rw [plannedRelationships, hjoins]
    exact h.grown
  · rw [hjoins]
    exact h.summary

/-! ## §3. A node. -/

/-- A variable stands for the node of an earlier position, or for none. -/
theorem Made.bound?_eq {descriptor : NodePattern PropertyMap} (h : Made store items n r creation)
    (hat : nodeAt? items n = some descriptor) :
    creation.bound? descriptor.var
      = if origin items n < n then some (nodeId items store.nextNodeId n) else none := by
  cases hvar : descriptor.var with
  | none =>
    rw [origin_of_anonymous hat hvar, if_neg (Nat.lt_irrefl n)]
    rfl
  | some var =>
    rw [nodeId, origin_of_named hat hvar]
    exact h.vars var

/-- A descriptor that is not its own origin stands for a node made before. -/
theorem Made.resolve_again {descriptor : NodePattern PropertyMap}
    (h : Made store items n r creation) (hat : nodeAt? items n = some descriptor)
    (hlt : origin items n < n) :
    creation.resolve descriptor = (nodeId items store.nextNodeId n, creation)
      ∧ Made store items (n + 1) r creation := by
  have hno : founder? items n = none := by rw [founder?, if_neg (Nat.ne_of_lt hlt)]
  have hfounders : founders items (n + 1) = founders items n := by
    simp [founders_succ, hno]
  refine ⟨?_, h.room, h.bounded, h.coherent, ?_, ?_, ?_⟩
  · rw [Creation.resolve, h.bound?_eq hat, if_pos hlt]
  · rw [plannedNodes, hfounders]
    exact h.grown
  · intro var
    have hne : firstNamed items var ≠ n := by
      -- the variable of this position is first given to a node before
      rintro rfl
      obtain ⟨found, hfound, hnamed⟩ := nodeAt?_firstNamed (lt_length_of_nodeAt? hat)
      rw [origin_of_named hfound hnamed] at hlt
      exact Nat.lt_irrefl _ hlt
    rw [h.vars]
    simp only [firstNamed_lt_succ_iff hne]
  · rw [hfounders]
    exact h.summary

/-- A descriptor that is its own origin makes a node. -/
theorem Made.resolve_new {descriptor : NodePattern PropertyMap}
    (h : Made store items n r creation) (hat : nodeAt? items n = some descriptor)
    (heq : origin items n = n) :
    ∃ after, creation.resolve descriptor = (nodeId items store.nextNodeId n, after)
      ∧ Made store items (n + 1) r after := by
  have hfounder : founder? items n = some descriptor := by rw [founder?, if_pos heq, hat]
  have hbound : creation.bound? descriptor.var = none := by
    rw [h.bound?_eq hat, if_neg (Nat.not_lt.2 (Nat.le_of_eq heq.symm))]
  have hid : creation.store.nextNodeId = nodeId items store.nextNodeId n := by
    rw [h.nextNodeId, nodeId, heq]
  have hfounders : founders items (n + 1) = founders items n ++ [descriptor] := by
    simp [founders_succ, hfounder]
  have hfits := h.node_fits hfounder (lt_length_of_nodeAt? hat)
  refine ⟨_, by rw [Creation.resolve, hbound]; exact congrArg (·, _) hid, h.room, ?_, ?_, ?_, ?_,
    ?_⟩
  · exact h.bounded.entersNode (Store.entersNode_createNode _ _ _) hfits
  · exact fun hstore => (h.coherent hstore).entersNode (Store.entersNode_createNode _ _ _)
      h.bounded.node?_nextNodeId
  · have hgrown := h.grown.trans
      (h.bounded.extends_createNode hfits descriptor.label.toList descriptor.properties)
    rw [List.append_nil, hid] at hgrown
    rw [plannedNodes_succ hfounder]
    rwa [nodeId, heq] at hgrown
  · intro var
    by_cases hfirst : firstNamed items var = n
    · -- the new node is the first one of its variable
      obtain ⟨found, hfound, hnamed⟩ := nodeAt?_firstNamed
        (hfirst.symm ▸ lt_length_of_nodeAt? hat : firstNamed items var < items.length)
      rw [hfirst, hat, Option.some.injEq] at hfound
      rw [hfirst, if_pos (Nat.lt_succ_self n)]
      simp [hfound, hnamed, h.nextNodeId]
    · have hkept : firstNamed items var < n + 1 ↔ firstNamed items var < n :=
        firstNamed_lt_succ_iff hfirst
      simp only [hkept, ← h.vars]
      cases hvar : descriptor.var with
      | none => rfl
      | some named =>
        have hne : var ≠ named := by
          rintro rfl
          exact hfirst (by rw [← origin_of_named hat hvar, heq])
        exact SortedMap.find?_insert_of_ne _ _ hne
  · simp [hfounders, h.summary]

/-- **A node descriptor is resolved to the node of its position.** -/
theorem Made.resolve {descriptor : NodePattern PropertyMap} (h : Made store items n r creation)
    (hat : nodeAt? items n = some descriptor) :
    ∃ after, creation.resolve descriptor = (nodeId items store.nextNodeId n, after)
      ∧ Made store items (n + 1) r after := by
  rcases Nat.lt_or_eq_of_le (origin_le hat) with hlt | heq
  · exact ⟨creation, h.resolve_again hat hlt⟩
  · exact h.resolve_new hat heq

/-! ## §4. A relationship. -/

/-- **A relationship descriptor draws the relationship of its position**; its
nodes are there, so this cannot fail. -/
theorem Made.connect {descriptor : RelationshipPattern PropertyMap} {type : RelationshipType}
    {before behind : NodePattern PropertyMap} (h : Made store items n (i + 1) creation)
    (hat : items[i + 1]? = some (.relationship descriptor)) (htype : descriptor.type = some type)
    (hbefore : nodeAt? items i = some before) (hbehind : nodeAt? items (i + 2) = some behind)
    (hlt : i + 2 < n) :
    ∃ after, creation.connect type (nodeId items store.nextNodeId i)
        (nodeId items store.nextNodeId (i + 2)) descriptor.properties = .ok after
      ∧ Made store items n (i + 2) after := by
  have hstart := h.hasNode hbefore (by omega)
  have hend := h.hasNode hbehind hlt
  have hjoin : join? items store.nextNodeId (i + 1) = some (fun id =>
      ⟨id, type, nodeId items store.nextNodeId i, nodeId items store.nextNodeId (i + 2),
        descriptor.properties⟩) := by
    simp [join?, hat, htype]
  have hjoins : joins items store.nextNodeId (i + 2)
      = joins items store.nextNodeId (i + 1) ++ (join? items store.nextNodeId (i + 1)).toList :=
    joins_succ items store.nextNodeId (i + 1)
  cases hcreate : creation.store.createRelationship type (nodeId items store.nextNodeId i)
      (nodeId items store.nextNodeId (i + 2)) descriptor.properties with
  | error error =>
    have hnone := Store.danglingEnd?_eq_none_iff.2 ⟨hstart, hend⟩
    rw [Store.createRelationship, hnone] at hcreate
    cases hcreate
  | ok result =>
    obtain ⟨id, drawn⟩ := result
    obtain ⟨henters, hid⟩ := Store.entersRelationship_createRelationship hcreate
    have hfits := h.relationship_fits hjoin (List.getElem?_eq_some_iff.1 hat).1
    refine
      ⟨{ creation with
          store := drawn
          summary :=
            { creation.summary with relationships := creation.summary.relationships + 1 } },
        by rw [Creation.connect, hcreate], h.room, ?_, ?_, ?_, h.vars, ?_⟩
    · exact h.bounded.entersRelationship henters (hid ▸ hfits)
    · exact fun hstore => (h.coherent hstore).entersRelationship henters
        (hid ▸ h.bounded.relationship?_nextRelationshipId)
    · have hgrown := h.grown.trans (h.bounded.extends_createRelationship hfits hcreate)
      rw [List.append_nil, h.nextRelationshipId] at hgrown
      rw [plannedRelationships_succ hjoin]
      exact hgrown
    · simp [hjoins, hjoin, h.summary]

/-! ## §5. Whole chains. -/

/-- `previous` is the node of the position before `n`. -/
def Behind (items : PatternElement PropertyMap) (first : NodeId) (n : Nat)
    (previous : Option NodeId) : Prop :=
  ∃ i descriptor, n = i + 1 ∧ nodeAt? items i = some descriptor
    ∧ previous = some (nodeId items first i)

/-- What is left of a chain at position `n` stands there in the pattern. -/
theorem getElem?_of_drop {rest tail : PatternElement PropertyMap} (h : items.drop n = rest ++ tail)
    {j : Nat} (hj : j < rest.length) : items[n + j]? = rest[j]? := by
  rw [← List.getElem?_drop, h, List.getElem?_append_left hj]

theorem drop_of_drop {item : PatternItem PropertyMap} {rest tail : PatternElement PropertyMap}
    (h : items.drop n = item :: rest ++ tail) : items.drop (n + 1) = rest ++ tail := by
  rw [← List.drop_drop, h]
  rfl

/-- **A chain that can be made is made**, from any position at which it does
not begin with a relationship that has no node before it. -/
theorem Made.steps {tail : PatternElement PropertyMap} :
    ∀ {rest : PatternElement PropertyMap} {n : Nat} {creation : Creation}
      {previous : Option NodeId},
      Made store items n n creation → JoinsTyped rest → items.drop n = rest ++ tail →
      rest = [] ∨ (nodeAt? rest 0).isSome ∨ Behind items store.nextNodeId n previous →
      ∃ after, creation.steps previous rest = (after, none)
        ∧ Made store items (n + rest.length) (n + rest.length) after
  | [], n, creation, previous, h, _, _, _ => ⟨creation, rfl, h⟩
  | .node descriptor :: rest, n, creation, previous, h, htyped, hdrop, _ => by
    have hat : nodeAt? items n = some descriptor :=
      nodeAt?_eq_some_iff.2 (getElem?_of_drop hdrop (Nat.zero_lt_succ _))
    obtain ⟨resolved, hresolve, hmade⟩ := h.resolve hat
    obtain ⟨after, hsteps, hafter⟩ := (hmade.passNode hat).steps
      (joinsTyped_cons_node.1 htyped) (drop_of_drop hdrop)
      (.inr (.inr ⟨n, descriptor, rfl, hat, rfl⟩))
    refine ⟨after, ?_, ?_⟩
    · rw [Creation.steps, hresolve]
      exact hsteps
    · rw [List.length_cons, Nat.add_comm rest.length, ← Nat.add_assoc]
      exact hafter
  | .relationship descriptor :: .node next :: rest, n, creation, previous, h, htyped, hdrop,
      hbehind => by
    obtain ⟨htype, -, htyped⟩ := joinsTyped_cons_relationship.1 htyped
    obtain ⟨type, htype⟩ := Option.isSome_iff_exists.1 htype
    obtain hbehind | hbehind | ⟨i, before, rfl, hbefore, rfl⟩ := hbehind
    · cases hbehind
    · cases hbehind
    have hat : items[i + 1]? = some (.relationship descriptor) :=
      getElem?_of_drop hdrop (Nat.zero_lt_succ _)
    have hnext : nodeAt? items (i + 2) = some next :=
      nodeAt?_eq_some_iff.2 (getElem?_of_drop hdrop (Nat.succ_lt_succ (Nat.zero_lt_succ _)))
    -- the node behind comes first, and then both ends are there
    obtain ⟨resolved, hresolve, hmade⟩ := (h.passRelationship hat).resolve hnext
    obtain ⟨drawn, hconnect, hmade⟩ := hmade.connect hat htype hbefore hnext (by omega)
    obtain ⟨after, hsteps, hafter⟩ := (hmade.passNode hnext).steps
      (joinsTyped_cons_node.1 htyped) (drop_of_drop (drop_of_drop hdrop))
      (.inr (.inr ⟨i + 2, next, rfl, hnext, rfl⟩))
    refine ⟨after, ?_, ?_⟩
    · simp only [Creation.steps, htype, hresolve, hconnect]
      exact hsteps
    · have hlength : i + 1 + (rest.length + 1 + 1) = i + 3 + rest.length := by omega
      rw [List.length_cons, List.length_cons, hlength]
      exact hafter
  | [.relationship descriptor], _, _, _, _, htyped, _, _ => by
    have hnode := (joinsTyped_cons_relationship.1 htyped).2.1
    simp [nodeAt?] at hnode
  | .relationship descriptor :: .relationship other :: rest, _, _, _, _, htyped, _, _ => by
    have hnode := (joinsTyped_cons_relationship.1 htyped).2.1
    simp [nodeAt?] at hnode

/-- **A pattern that can be made is made.** -/
theorem Made.elements {pattern : GraphPattern} : ∀ {n : Nat} {creation : Creation},
    Made store items n n creation → (∀ element ∈ pattern, CanBeMade element) →
    items.drop n = pattern.flatten →
    ∃ after, creation.elements pattern = (after, none)
      ∧ Made store items (n + pattern.flatten.length) (n + pattern.flatten.length) after := by
  induction pattern with
  | nil =>
    intro n creation h _ _
    exact ⟨creation, rfl, h⟩
  | cons element rest ih =>
    intro n creation h hcan hdrop
    have hfirst := hcan element List.mem_cons_self
    obtain ⟨made, hsteps, hmade⟩ : ∃ made, creation.steps none element = (made, none)
        ∧ Made store items (n + element.length) (n + element.length) made :=
      h.steps hfirst.joinsTyped hdrop (.inr (.inl hfirst.startsWithNode))
    have hrest : items.drop (n + element.length) = rest.flatten := by
      rw [← List.drop_drop, hdrop, List.flatten_cons, List.drop_left]
    obtain ⟨after, helements, hafter⟩ :=
      ih hmade (fun other hother => hcan other (List.mem_cons_of_mem _ hother)) hrest
    refine ⟨after, ?_, ?_⟩
    · rw [Creation.elements, hsteps]
      exact helements
    · rw [List.flatten_cons, List.length_append, ← Nat.add_assoc]
      exact hafter

end

/-- **All of a pattern, and nothing else.** -/
theorem elements_start {store : Store} {pattern : GraphPattern} (h : store.Bounded)
    (hroom : Room store pattern.flatten) (hcan : ∀ element ∈ pattern, CanBeMade element) :
    ∃ after, (start store).elements pattern = (after, none)
      ∧ after.store.Bounded
      ∧ (store.Coherent → after.store.Coherent)
      ∧ store.Extends after.store (newNodes store pattern) (newRelationships store pattern)
      ∧ after.summary = ⟨(newNodes store pattern).length,
          (newRelationships store pattern).length⟩ := by
  obtain ⟨after, helements, hmade⟩ :=
    (made_start h hroom).elements hcan (List.drop_zero (l := pattern.flatten))
  rw [Nat.zero_add] at hmade
  refine ⟨after, helements, hmade.bounded, hmade.coherent, hmade.grown, ?_⟩
  rw [hmade.summary, newNodes, newRelationships, length_plannedNodes, length_plannedRelationships]

end PropertyGraph.Creation
