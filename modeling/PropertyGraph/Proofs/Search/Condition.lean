/-
  PropertyGraph.Proofs.Search.Condition
  ─────────────────────────────────────
  **A CONDITION IS A FILTER.**

  A search asks for its condition as early as it can: at every position of
  the variable, in each chain by itself, before anything is joined.  It finds
  just what a search without the condition finds and the condition keeps:

      search_condition   — behind any bindings that meet the condition
      filter_join        — joining what is kept is keeping what is joined
      condition_filters  — for whole patterns

  The indices need not be exact for this.  What matters is that a variable
  stands for one entity of the store, so that asking twice is asking once.
-/
import PropertyGraph.Proofs.Files.Loaded
import PropertyGraph.Proofs.Search.Held
import PropertyGraph.Proofs.Search.Pairs

namespace PropertyGraph.Search

open PropertyGraph.Query

/-! ## §1. Solutions that meet a condition. -/

instance (entity : Entity) (key : String) (expected : Value) :
    Decidable (HasProperty entity key expected) :=
  decidable_of_iff _ hasProperty_iff

/-- What the variable of the condition is bound to, if to anything, has the
property asked for. -/
def MeetsAtEnd (condition : Condition Value) (solution : Bindings) : Prop :=
  ∀ entity ∈ solution.find? condition.var, HasProperty entity condition.key condition.value

instance (condition : Condition Value) (solution : Bindings) :
    Decidable (MeetsAtEnd condition solution) :=
  inferInstanceAs (Decidable (∀ _ ∈ _, _))

variable {store : Store} {c : Condition Value} {condition : Option (Condition Value)}
  {item : PatternItem PropertyMap} {entity : Entity} {bindings : Bindings}

/-- One more position meets the condition if its entity does. -/
theorem meetsAtEnd_bindPosition (h : MeetsAtEnd c bindings) :
    MeetsAtEnd c (bindPosition bindings (item, entity)) ↔ Meets (some c) item entity := by
  unfold MeetsAtEnd Meets
  rw [find?_bindPosition]
  by_cases hvar : item.var = some c.var
  · simp [hvar]
  · rw [if_neg hvar]
    refine ⟨fun _ c' hc hvar' => ?_, fun _ => h⟩
    obtain rfl := Option.some.inj hc
    exact absurd hvar' hvar

/-- Two solutions that hold the same snapshots meet the condition together if
each of them does. -/
theorem meetsAtEnd_union {left right : Bindings}
    (h : ∀ var e f, left.find? var = some e → right.find? var = some f → e = f) :
    MeetsAtEnd c (left.union right) ↔ MeetsAtEnd c left ∧ MeetsAtEnd c right := by
  unfold MeetsAtEnd
  rw [Bindings.find?_union h]
  cases hl : left.find? c.var with
  | none => simp
  | some e =>
    cases hr : right.find? c.var with
    | none => simp
    | some f => simp [h c.var e f hl hr]

/-! ## §2. One chain. -/

/-- Asking before an entity is bound keeps what meets the condition afterwards. -/
theorem bindChecked_condition (item : PatternItem PropertyMap)
    (hbound : BoundInStore store bindings) (hentity : InStore store entity)
    (hmeets : MeetsAtEnd c bindings) :
    bindChecked (some c) item.var entity bindings
      = (bindChecked none item.var entity bindings).filter
          (fun after => MeetsAtEnd c after) := by
  refine Option.ext (fun after => ?_)
  rw [Option.filter_eq_some_iff, bindChecked_eq_some_iff hbound hentity,
    bindChecked_eq_some_iff hbound hentity, decide_eq_true_iff]
  have hnone : Meets none item entity := fun _ h => nomatch h
  constructor
  · rintro ⟨hmeet, hfree, rfl⟩
    exact ⟨⟨hnone, hfree, rfl⟩, (meetsAtEnd_bindPosition hmeets).2 hmeet⟩
  · rintro ⟨⟨-, hfree, rfl⟩, hmeet⟩
    exact ⟨(meetsAtEnd_bindPosition hmeets).1 hmeet, hfree, rfl⟩

theorem acceptNode_condition {descriptor : NodePattern PropertyMap} {node : Node}
    (hbound : BoundInStore store bindings) (hnode : InStore store (.node node))
    (hmeets : MeetsAtEnd c bindings) :
    acceptNode (some c) descriptor node bindings
      = (acceptNode none descriptor node bindings).filter (fun after => MeetsAtEnd c after) := by
  unfold acceptNode
  split
  · exact bindChecked_condition (.node descriptor) hbound hnode hmeets
  · rfl

theorem acceptRelationship_condition {descriptor : RelationshipPattern PropertyMap}
    {r : Relationship} (hbound : BoundInStore store bindings)
    (hr : InStore store (.relationship r)) (hmeets : MeetsAtEnd c bindings) :
    acceptRelationship (some c) descriptor r bindings
      = (acceptRelationship none descriptor r bindings).filter
          (fun after => MeetsAtEnd c after) := by
  unfold acceptRelationship
  split
  · exact bindChecked_condition (.relationship descriptor) hbound hr hmeets
  · rfl

/-- Asking at a position keeps the steps after which the condition is met. -/
theorem steps_condition (hstore : store.Integral) (hbound : BoundInStore store bindings)
    (hmeets : MeetsAtEnd c bindings) (cursor : Cursor) :
    steps store (some c) item cursor bindings
      = (steps store none item cursor bindings).filter (fun step => MeetsAtEnd c step.2) := by
  cases item with
  | node descriptor =>
    unfold steps
    rw [List.filter_filterMap]
    refine List.filterMap_congr (fun node hnode => ?_)
    rw [acceptNode_condition hbound (Integral.inStore_of_mem_nodeCandidates hstore hnode) hmeets,
      Option.filter_map]
    rfl
  | relationship descriptor =>
    unfold steps
    rw [List.filter_filterMap]
    refine List.filterMap_congr (fun r hr => ?_)
    rw [acceptRelationship_condition hbound (inStore_of_mem_relationshipCandidates hstore hr)
      hmeets, Option.filter_map]
    rfl

/-- A variable stays bound to what it is bound to. -/
theorem find?_of_mem_search (hstore : store.Integral) {var : String}
    {items : PatternElement PropertyMap} {cursor : Cursor} {solution : Bindings}
    (hbound : BoundInStore store bindings) (hfind : bindings.find? var = some entity)
    (h : solution ∈ search store condition items cursor bindings) :
    solution.find? var = some entity := by
  refine (Integral.search_keeps hstore (P := fun b => b.find? var = some entity) ?_ hbound
    hfind h).2
  intro item _ b e hfind _ hfree
  rw [find?_bindPosition]
  -- the position may have this variable too, but then it means the same entity
  split
  next hvar => rw [hfree var entity hvar hfind]
  next => exact hfind

/-- From bindings that break the condition nothing leads to a solution that
meets it. -/
theorem filter_search_of_not_meetsAtEnd (hstore : store.Integral)
    (hbound : BoundInStore store bindings) (h : ¬ MeetsAtEnd c bindings)
    (items : PatternElement PropertyMap) (cursor : Cursor) :
    (search store condition items cursor bindings).filter (fun s => MeetsAtEnd c s) = [] := by
  rw [List.filter_eq_nil_iff]
  intro solution hmem hmeets
  refine h (fun entity hfind => ?_)
  exact of_decide_eq_true hmeets entity (find?_of_mem_search hstore hbound hfind hmem)

theorem flatMap_filter {α β : Type} (p : α → Bool) (f : α → List β) (list : List α) :
    (list.filter p).flatMap f = list.flatMap (fun a => if p a then f a else []) := by
  induction list with
  | nil => rfl
  | cons a rest ih =>
    rw [List.flatMap_cons, ← ih, List.filter_cons]
    split <;> rfl

/-- **The rest of a chain.**  Behind bindings that meet the condition, asking
for it on the way is keeping what meets it at the end. -/
theorem search_condition (hstore : store.Integral) :
    ∀ (items : PatternElement PropertyMap) {cursor : Cursor} {bindings : Bindings},
      BoundInStore store bindings → MeetsAtEnd c bindings →
      search store (some c) items cursor bindings
        = (search store none items cursor bindings).filter (fun s => MeetsAtEnd c s) := by
  intro items
  induction items with
  | nil =>
    intro cursor bindings _ hmeets
    show [bindings] = [bindings].filter _
    rw [List.filter_singleton, decide_eq_true hmeets]
    rfl
  | cons item rest ih =>
    intro cursor bindings hbound hmeets
    rw [search_cons, search_cons, steps_condition hstore hbound hmeets, List.filter_flatMap,
      flatMap_filter]
    refine List.flatMap_congr (fun step hstep => ?_)
    obtain ⟨hin, -, hafter⟩ := Integral.of_mem_steps hstore hbound hstep
    have hnext : BoundInStore store step.2 := hafter ▸ hbound.bindPosition hin
    -- a step that breaks the condition is not taken, or all that comes of it is dropped
    by_cases hstepMeets : MeetsAtEnd c step.2
    · rw [if_pos (decide_eq_true hstepMeets), ih hnext hstepMeets]
    · rw [if_neg (by simpa using hstepMeets),
        filter_search_of_not_meetsAtEnd hstore hnext hstepMeets]

theorem element_condition (hstore : store.Integral) (chain : PatternElement PropertyMap) :
    element store (some c) chain
      = (element store none chain).filter (fun s => MeetsAtEnd c s) := by
  unfold element
  split
  · rfl
  · exact search_condition hstore chain boundInStore_empty (fun _ h => nomatch h)

/-! ## §3. Joined chains. -/

/-- **Joining what is kept is keeping what is joined.** -/
theorem filter_join {left right : List Bindings} (hleft : ∀ l ∈ left, BoundInStore store l)
    (hright : ∀ r ∈ right, BoundInStore store r) :
    join (left.filter (fun s => MeetsAtEnd c s)) (right.filter (fun s => MeetsAtEnd c s))
      = (join left right).filter (fun s => MeetsAtEnd c s) := by
  rw [join_eq_map_union, join_eq_map_union, product_filter, List.filter_map, List.filter_filter,
    List.filter_filter]
  congr 1
  refine List.filter_congr (fun p hp => ?_)
  obtain ⟨hl, hr⟩ := List.mem_product.1 hp
  cases hagrees : p.1.agrees p.2 with
  | false => simp
  | true =>
    have hmeets : MeetsAtEnd c (p.1.union p.2) ↔ MeetsAtEnd c p.1 ∧ MeetsAtEnd c p.2 :=
      meetsAtEnd_union ((hleft _ hl).eq_of_agrees (hright _ hr) hagrees)
    simp [hmeets]

theorem foldl_join_condition (hstore : store.Integral) (chains : GraphPattern) :
    ∀ {left : List Bindings}, (∀ l ∈ left, BoundInStore store l) →
      (chains.map (element store (some c))).foldl join (left.filter (fun s => MeetsAtEnd c s))
        = ((chains.map (element store none)).foldl join left).filter
            (fun s => MeetsAtEnd c s) := by
  induction chains with
  | nil => exact fun _ => rfl
  | cons chain rest ih =>
    intro left hleft
    have hchain : ∀ r ∈ element store none chain, BoundInStore store r :=
      fun r hr => boundInStore_of_mem_element hstore hr
    rw [List.map_cons, List.foldl_cons, List.map_cons, List.foldl_cons,
      element_condition hstore, filter_join hleft hchain]
    exact ih (boundInStore_of_mem_join hleft hchain)

/-! ## §4. Variables that stand nowhere. -/

/-- A chain binds no variables but its own. -/
theorem mem_vars_of_mem_element (hstore : store.Integral) {chain : PatternElement PropertyMap}
    {solution : Bindings} (h : solution ∈ element store condition chain) {var : String}
    (hfind : solution.find? var = some entity) : var ∈ chain.filterMap PatternItem.var := by
  unfold element at h
  split at h
  · cases h
  refine (Integral.search_keeps hstore
    (P := fun b => ∀ v e, b.find? v = some e → v ∈ chain.filterMap PatternItem.var) ?_
    boundInStore_empty (fun _ _ hempty => nomatch hempty) h).2 var entity hfind
  intro item hitem b e hvars _ _ v bound hbound
  rw [find?_bindPosition] at hbound
  split at hbound
  next hvar => exact List.mem_filterMap.2 ⟨item, hitem, hvar⟩
  next => exact hvars v bound hbound

/-- A union binds what one of its sides binds. -/
theorem exists_of_find?_union {left right : Bindings} {var : String}
    (h : (left.union right).find? var = some entity) :
    left.find? var = some entity ∨ right.find? var = some entity := by
  rw [Bindings.find?_union_eq, Bindings.held] at h
  split at h
  all_goals
    rcases Option.or_eq_some_iff.1 h with hside | ⟨-, hside⟩
    all_goals simp [hside]

/-- A pattern binds no variables but its own. -/
theorem mem_vars_of_mem_pattern (hstore : store.Integral) {chains : GraphPattern}
    {solution : Bindings} (h : solution ∈ pattern store condition chains) {var : String}
    (hfind : solution.find? var = some entity) : var ∈ Pattern.vars chains := by
  refine forall_of_mem_pattern
    (P := fun s => ∀ v e, s.find? v = some e → v ∈ Pattern.vars chains) ?_ ?_ solution h var
    entity hfind
  · intro l r hl hr _ v e hv
    rcases exists_of_find?_union hv with hv | hv
    · exact hl v e hv
    · exact hr v e hv
  · intro chain hchain s hs v e hv
    exact List.mem_flatMap.2 ⟨chain, hchain, mem_vars_of_mem_element hstore hs hv⟩

/-- **A condition filters the solutions of a pattern.**  The search with it finds
those that the search without it finds and that do not bind its variable or bind
it to an entity with a value alike, in the same order.  So a variable that stands
at no position filters nothing. -/
theorem condition_filters (hstore : store.Obtainable) (c : Condition Value)
    (chains : GraphPattern) :
    pattern store (some c) chains
        = (pattern store none chains).filter (fun solution => MeetsAtEnd c solution)
      ∧ (c.var ∉ Pattern.vars chains →
          pattern store (some c) chains = pattern store none chains) := by
  have hfilter : pattern store (some c) chains
      = (pattern store none chains).filter (fun solution => MeetsAtEnd c solution) := by
    cases chains with
    | nil => rfl
    | cons chain rest =>
      show (rest.map (element store (some c))).foldl join (element store (some c) chain) = _
      rw [element_condition hstore.integral]
      exact foldl_join_condition hstore.integral rest
        (fun l hl => boundInStore_of_mem_element hstore.integral hl)
  refine ⟨hfilter, fun hvar => ?_⟩
  rw [hfilter, List.filter_eq_self]
  intro solution hmem
  refine decide_eq_true (fun entity hfind => ?_)
  exact absurd (mem_vars_of_mem_pattern hstore.integral hmem hfind) hvar

/-- Two nodes of different age that know each other. -/
def agedRun : List StoreOperation :=
  [.createNode ["A"] (.ofList [("age", .int 1)]), .createNode ["A"] (.ofList [("age", .int 2)]),
    .createRelationship "R" 1 2 ∅, .createRelationship "R" 2 1 ∅]

/-- `(a)-[r]->(b), (b)-[]->(a), (a:A)` as chains. -/
def thereAndBack : GraphPattern :=
  [[.node ⟨some "a", none, ∅⟩, .relationship ⟨some "r", none, ∅⟩, .node ⟨some "b", none, ∅⟩],
    [.node ⟨some "b", none, ∅⟩, .relationship ⟨none, none, ∅⟩, .node ⟨some "a", none, ∅⟩],
    [.node ⟨some "a", some "A", ∅⟩]]

/-- The age of a variable, given as a float. -/
def isOne (var : String) : Condition Value := ⟨var, "age", .float (Binary64.ofInt 1)⟩

/-- `a` stands in three chains and `z` in none. -/
theorem condition_filters_thereAndBack :
    (Store.empty.run agedRun).2.Obtainable ∧ "z" ∉ Pattern.vars thereAndBack
      ∧ (∃ found, pattern (Store.empty.run agedRun).2 none thereAndBack = found
        ∧ found.map (fun s => (s.find? "a").map numberOf) = [some 1, some 2]
        ∧ pattern (Store.empty.run agedRun).2 (some (isOne "a")) thereAndBack
          = found.filter (fun solution => MeetsAtEnd (isOne "a") solution)
        ∧ pattern (Store.empty.run agedRun).2 (some (isOne "z")) thereAndBack = found)
      ∧ (pattern (Store.empty.run agedRun).2 (some (isOne "a")) thereAndBack).map
          (fun s => (s.find? "a").map numberOf) = [some 1] := by
  have hstore : (Store.empty.run agedRun).2.Obtainable := Store.Obtainable.empty.run agedRun
  have hvar : (isOne "z").var ∉ Pattern.vars thereAndBack := by decide +kernel
  refine ⟨hstore, hvar, ⟨_, rfl, by decide +kernel, ?_, ?_⟩, by decide +kernel⟩
  · exact (condition_filters hstore (isOne "a") thereAndBack).1
  · exact (condition_filters hstore (isOne "z") thereAndBack).2 hvar

end PropertyGraph.Search
