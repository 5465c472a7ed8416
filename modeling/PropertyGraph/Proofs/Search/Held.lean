/-
  PropertyGraph.Proofs.Search.Held
  ────────────────────────────────
  **SOLUTIONS HOLD ENTITIES OF THE STORE.**

  Every variable of every solution is bound to an entity as it is in the
  store at the time of the search (`boundInStore_of_mem_pattern`).  So two
  solutions of one search that bind a variable to the same entity hold the
  same snapshot of it.

  The indices need not be exact for this: what they list beyond the
  entities they should is still looked up in the maps.
-/
import PropertyGraph.Proofs.Search.Answers

namespace PropertyGraph.Search

open PropertyGraph.Query

variable {store : Store} {condition : Option (Condition Value)}

/-! ## §1. One chain. -/

theorem inStore_of_relationship? (hstore : store.Integral) {id : RelationshipId} {r : Relationship}
    (h : store.relationship? id = some r) : InStore store (.relationship r) := by
  show store.relationship? r.id = some r
  rw [hstore.relationship_id h]
  exact h

theorem inStore_of_mem_labelled (hstore : store.Integral) {label : Label} {node : Node}
    (h : node ∈ store.labelled label) : InStore store (.node node) := by
  obtain ⟨id, -, hid⟩ := List.mem_filterMap.1 h
  exact inStore_of_node? hstore hid

theorem inStore_of_mem_leaving (hstore : store.Integral) {id : NodeId} {r : Relationship}
    (h : r ∈ store.leaving id) : InStore store (.relationship r) := by
  obtain ⟨found, -, hfound⟩ := List.mem_filterMap.1 h
  exact inStore_of_relationship? hstore hfound

/-- Candidates are nodes of the store, whatever its indices list. -/
theorem Integral.inStore_of_mem_nodeCandidates (hstore : store.Integral)
    {descriptor : NodePattern PropertyMap} {cursor : Cursor} {bindings : Bindings} {node : Node}
    (h : node ∈ nodeCandidates store descriptor cursor bindings) : InStore store (.node node) := by
  unfold nodeCandidates at h
  split at h
  · exact ((mem_node?_toList hstore).1 h).1
  all_goals
    split at h
    · exact ((mem_node?_toList hstore).1 h).1
    · split at h
      · exact inStore_of_mem_labelled hstore h
      · exact hstore.mem_allNodes_iff.1 h

theorem inStore_of_mem_relationshipCandidates (hstore : store.Integral) {cursor : Cursor}
    {r : Relationship} (h : r ∈ relationshipCandidates store cursor) :
    InStore store (.relationship r) := by
  cases cursor with
  | node id => exact inStore_of_mem_leaving hstore h
  | start => cases h
  | relationship end_ => cases h

/-- A step takes an entity of the store that its variable may mean, and binds it. -/
theorem Integral.of_mem_steps (hstore : store.Integral) {item : PatternItem PropertyMap}
    {cursor : Cursor} {bindings : Bindings} (hbound : BoundInStore store bindings)
    {step : Entity × Bindings} (h : step ∈ steps store condition item cursor bindings) :
    InStore store step.1 ∧ Free bindings item step.1
      ∧ step.2 = bindPosition bindings (item, step.1) := by
  cases item with
  | node descriptor =>
    obtain ⟨node, hnode, hstep⟩ := List.mem_filterMap.1 h
    obtain ⟨after, haccept, rfl⟩ := Option.map_eq_some_iff.1 hstep
    have hin := Integral.inStore_of_mem_nodeCandidates hstore hnode
    exact ⟨hin, ((acceptNode_eq_some_iff hbound hin).1 haccept).2.2⟩
  | relationship descriptor =>
    obtain ⟨r, hr, hstep⟩ := List.mem_filterMap.1 h
    obtain ⟨after, haccept, rfl⟩ := Option.map_eq_some_iff.1 hstep
    have hin := inStore_of_mem_relationshipCandidates hstore hr
    exact ⟨hin, ((acceptRelationship_eq_some_iff hbound hin).1 haccept).2.2⟩

/-- **What each position keeps, a search keeps.**  A position binds an entity of
the store that its variable may mean. -/
theorem Integral.search_keeps (hstore : store.Integral) {P : Bindings → Prop} :
    ∀ {items : PatternElement PropertyMap},
      (∀ item ∈ items, ∀ bindings entity, P bindings → InStore store entity →
        Free bindings item entity → P (bindPosition bindings (item, entity))) →
      ∀ {cursor : Cursor} {bindings solution : Bindings}, BoundInStore store bindings →
        P bindings → solution ∈ search store condition items cursor bindings →
        BoundInStore store solution ∧ P solution := by
  intro items
  induction items with
  | nil =>
    intro _ cursor bindings solution hbound hP hmem
    obtain rfl := List.mem_singleton.1 hmem
    exact ⟨hbound, hP⟩
  | cons item rest ih =>
    intro hkeeps cursor bindings solution hbound hP hmem
    obtain ⟨hitem, hrest⟩ := List.forall_mem_cons.1 hkeeps
    rw [search_cons] at hmem
    obtain ⟨step, hstep, hmem⟩ := List.mem_flatMap.1 hmem
    obtain ⟨hin, hfree, hafter⟩ := Integral.of_mem_steps hstore hbound hstep
    rw [hafter] at hmem
    exact ih hrest (hbound.bindPosition hin) (hitem bindings step.1 hP hin hfree) hmem

theorem boundInStore_of_mem_search (hstore : store.Integral)
    {items : PatternElement PropertyMap} {cursor : Cursor} {bindings solution : Bindings}
    (hbound : BoundInStore store bindings)
    (h : solution ∈ search store condition items cursor bindings) :
    BoundInStore store solution :=
  (Integral.search_keeps hstore (P := fun _ => True) (fun _ _ _ _ _ _ _ => trivial) hbound
    trivial h).1

theorem boundInStore_of_mem_element (hstore : store.Integral) {chain : PatternElement PropertyMap}
    {solution : Bindings} (h : solution ∈ element store condition chain) :
    BoundInStore store solution := by
  unfold element at h
  split at h
  · cases h
  · exact boundInStore_of_mem_search hstore boundInStore_empty h

/-! ## §2. Joined chains. -/

/-- Where two solutions agree they hold the same snapshots. -/
theorem BoundInStore.eq_of_agrees {left right : Bindings} (hleft : BoundInStore store left)
    (hright : BoundInStore store right) (h : left.agrees right = true) :
    ∀ var e f, left.find? var = some e → right.find? var = some f → e = f :=
  fun var e f he hf =>
    eq_of_identity (hleft var e he) (hright var f hf) (Bindings.agrees_iff.1 h var e f he hf)

/-- So it does not matter which of them the union takes. -/
theorem BoundInStore.union {left right : Bindings} (hleft : BoundInStore store left)
    (hright : BoundInStore store right) (h : left.agrees right = true) :
    BoundInStore store (left.union right) := by
  intro var entity hfind
  rw [Bindings.find?_union (hleft.eq_of_agrees hright h)] at hfind
  cases hl : left.find? var with
  | none =>
    rw [hl, Option.none_or] at hfind
    exact hright var entity hfind
  | some e =>
    rw [hl, Option.some_or] at hfind
    exact hleft var entity (hl.trans hfind)

/-- What both sides of a join have and unions keep, the join has. -/
theorem forall_of_mem_join {P : Bindings → Prop} {left right : List Bindings}
    (hunion : ∀ l r, P l → P r → l.agrees r = true → P (l.union r))
    (hleft : ∀ l ∈ left, P l) (hright : ∀ r ∈ right, P r) :
    ∀ solution ∈ join left right, P solution := by
  intro solution hmem
  rw [join_eq] at hmem
  obtain ⟨l, hl, hmem⟩ := List.mem_flatMap.1 hmem
  obtain ⟨r, hr, rfl⟩ := List.mem_map.1 hmem
  obtain ⟨hr, hagrees⟩ := List.mem_filter.1 hr
  exact hunion l r (hleft l hl) (hright r hr) hagrees

/-- **What all chains have and unions keep, a pattern has.** -/
theorem forall_of_mem_pattern {P : Bindings → Prop} {chains : GraphPattern}
    (hunion : ∀ l r, P l → P r → l.agrees r = true → P (l.union r))
    (hchains : ∀ chain ∈ chains, ∀ solution ∈ element store condition chain, P solution) :
    ∀ solution ∈ pattern store condition chains, P solution := by
  have hjoin : ∀ (rest : GraphPattern) {left : List Bindings}, (∀ l ∈ left, P l) →
      (∀ chain ∈ rest, ∀ solution ∈ element store condition chain, P solution) →
      ∀ solution ∈ (rest.map (element store condition)).foldl join left, P solution := by
    intro rest
    induction rest with
    | nil => exact fun hleft _ => hleft
    | cons chain rest ih =>
      intro left hleft hrest
      obtain ⟨hchain, hrest⟩ := List.forall_mem_cons.1 hrest
      exact ih (forall_of_mem_join hunion hleft hchain) hrest
  cases chains with
  | nil => exact fun _ h => nomatch h
  | cons chain rest =>
    obtain ⟨hchain, hrest⟩ := List.forall_mem_cons.1 hchains
    exact hjoin rest hchain hrest

theorem boundInStore_of_mem_join {left right : List Bindings}
    (hleft : ∀ l ∈ left, BoundInStore store l) (hright : ∀ r ∈ right, BoundInStore store r) :
    ∀ solution ∈ join left right, BoundInStore store solution :=
  forall_of_mem_join (fun _ _ hl hr hagrees => hl.union hr hagrees) hleft hright

/-- **Solutions are bound to entities of the store.** -/
theorem boundInStore_of_mem_pattern (hstore : store.Integral) {pattern : GraphPattern}
    {solution : Bindings} (h : solution ∈ Search.pattern store condition pattern) :
    BoundInStore store solution :=
  forall_of_mem_pattern (fun _ _ hl hr hagrees => hl.union hr hagrees)
    (fun _ _ _ hmem => boundInStore_of_mem_element hstore hmem) solution h

end PropertyGraph.Search
