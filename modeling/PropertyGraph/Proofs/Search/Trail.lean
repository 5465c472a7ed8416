/-
  PropertyGraph.Proofs.Search.Trail
  ─────────────────────────────────
  **THE SEARCH ALONG ONE CHAIN.**

  `trails` are the lists of entities along which a search reaches the end of
  a chain.  `Trail` says which lists those should be, without a search: the
  conditions of `Admissible` for the rest of a chain, and what is bound
  already keeps its meaning.

      search_eq_map_trails  — the search returns the bindings of the trails
      mem_trails_iff        — the trails are those the chain asks for
      pairwise_trails       — they come in the order of their ids
-/
import PropertyGraph.Proofs.Search.Step

namespace PropertyGraph.Search

open PropertyGraph.Query

variable {store : Store} {condition : Option (Condition Value)}
  {item : PatternItem PropertyMap} {rest : PatternElement PropertyMap}
  {entity : Entity} {bindings : Bindings}

/-! ## §1. Trails and the search. -/

/-- The lists of entities along which the rest of a chain can be followed. -/
def trails (store : Store) (condition : Option (Condition Value)) :
    PatternElement PropertyMap → Option Entity → Bindings → List (List Entity)
  | [], _, _ => [[]]
  | item :: rest, previous, bindings =>
    (steps store condition item (cursorAfter previous) bindings).flatMap (fun step =>
      (trails store condition rest (some step.1) step.2).map (fun trail => step.1 :: trail))

theorem flatMap_filterMap {α β γ : Type} (f : α → Option β) (g : β → List γ) (list : List α) :
    (list.filterMap f).flatMap g
      = list.flatMap (fun a => match f a with | some b => g b | none => []) := by
  induction list with
  | nil => rfl
  | cons a rest ih =>
    rw [List.filterMap_cons, List.flatMap_cons]
    cases f a with
    | none => exact ih
    | some b =>
      rw [List.flatMap_cons, ih]

/-- The search goes on after each step. -/
theorem search_cons (cursor : Cursor) :
    search store condition (item :: rest) cursor bindings
      = (steps store condition item cursor bindings).flatMap (fun step =>
          search store condition rest (cursorAfter (some step.1)) step.2) := by
  cases item with
  | node descriptor =>
    rw [search, steps, flatMap_filterMap]
    congr 1
    funext node
    cases acceptNode condition descriptor node bindings <;> rfl
  | relationship descriptor =>
    rw [search, steps, flatMap_filterMap]
    congr 1
    funext r
    cases acceptRelationship condition descriptor r bindings <;> rfl

/-- **The search returns the bindings of the trails**, in their order. -/
theorem search_eq_map_trails (hstore : store.Coherent)
    {items : PatternElement PropertyMap} :
    ∀ {previous : Option Entity} {bindings : Bindings}, BoundInStore store bindings →
      search store condition items (cursorAfter previous) bindings
        = (trails store condition items previous bindings).map
            (fun trail => bindPositions bindings (items.zip trail)) := by
  induction items with
  | nil => intro previous bindings _; rfl
  | cons item rest ih =>
    intro previous bindings hbound
    rw [search_cons, trails, List.map_flatMap, List.flatMap_def, List.flatMap_def]
    refine congrArg List.flatten (List.map_congr_left (fun step hstep => ?_))
    obtain ⟨hin, -, -, -, -, hafter⟩ := (mem_steps_iff hstore hbound).1 hstep
    have hnext : BoundInStore store step.2 := hafter ▸ hbound.bindPosition hin
    rw [ih hnext, List.map_map, hafter]
    rfl

/-- Trails come in the order of their ids. -/
theorem pairwise_trails (hstore : store.Coherent) {items : PatternElement PropertyMap} :
    ∀ {previous : Option Entity} {bindings : Bindings},
      (trails store condition items previous bindings).Pairwise
        (fun s t => s.map numberOf < t.map numberOf) := by
  induction items with
  | nil => intro previous bindings; exact List.pairwise_singleton _ _
  | cons item rest ih =>
    intro previous bindings
    rw [trails, List.pairwise_flatMap]
    refine ⟨fun step _ => ?_, ?_⟩
    · -- behind one step the rests are in order
      rw [List.pairwise_map]
      exact ih.imp (fun hlt => List.cons_lt_cons_iff.2 (.inr ⟨rfl, hlt⟩))
    · refine (pairwise_steps hstore condition item _ bindings).imp (fun hlt => ?_)
      intro s hs t ht
      obtain ⟨s', -, rfl⟩ := List.mem_map.1 hs
      obtain ⟨t', -, rfl⟩ := List.mem_map.1 ht
      exact List.cons_lt_cons_iff.2 (.inl hlt)

/-! ## §2. What a chain asks for. -/

/-- `trail` is an answer to the rest of a chain after `previous`. -/
structure Trail (store : Store) (condition : Option (Condition Value))
    (items : PatternElement PropertyMap) (previous : Option Entity) (bindings : Bindings)
    (trail : List Entity) : Prop where
  length : trail.length = items.length
  inStore : ∀ p ∈ items.zip trail, InStore store p.2
  fits : ∀ p ∈ items.zip trail, Fits p.1 p.2
  connected : Connected previous trail
  agreeing : Agreeing (items.zip trail) (items.zip trail)
  meets : ∀ p ∈ items.zip trail, Meets condition p.1 p.2
  free : ∀ p ∈ items.zip trail, Free bindings p.1 p.2

theorem trail_nil_iff {previous : Option Entity} {trail : List Entity} :
    Trail store condition [] previous bindings trail ↔ trail = [] := by
  constructor
  · intro h
    exact List.length_eq_zero_iff.1 h.length
  · intro heq
    subst heq
    exact
      { length := rfl
        inStore := fun _ hp => absurd hp List.not_mem_nil
        fits := fun _ hp => absurd hp List.not_mem_nil
        connected := trivial
        agreeing := fun _ hp => absurd hp List.not_mem_nil
        meets := fun _ hp => absurd hp List.not_mem_nil
        free := fun _ hp => absurd hp List.not_mem_nil }

/-- A trail is a step, and a trail from there that keeps what the step
bound. -/
theorem trail_cons_iff {previous : Option Entity} {trail : List Entity} :
    Trail store condition (item :: rest) previous bindings (entity :: trail)
      ↔ (InStore store entity ∧ Fits item entity ∧ Follows previous entity
          ∧ Meets condition item entity ∧ Free bindings item entity)
        ∧ Trail store condition rest (some entity) (bindPosition bindings (item, entity))
            trail := by
  have hhead : (item, entity) ∈ (item :: rest).zip (entity :: trail) := List.mem_cons_self
  have htail : ∀ {p}, p ∈ rest.zip trail → p ∈ (item :: rest).zip (entity :: trail) :=
    fun hp => List.mem_cons_of_mem _ hp
  constructor
  · intro h
    refine ⟨⟨h.inStore _ hhead, h.fits _ hhead, h.connected.1, h.meets _ hhead,
      h.free _ hhead⟩, ?_⟩
    exact
      { length := Nat.succ.inj h.length
        inStore := fun p hp => h.inStore p (htail hp)
        fits := fun p hp => h.fits p (htail hp)
        connected := h.connected.2
        agreeing := fun p hp q hq => h.agreeing p (htail hp) q (htail hq)
        meets := fun p hp => h.meets p (htail hp)
        free := by
          intro p hp var bound hvar hfind
          -- the binding is either that of the step or an earlier one
          rw [find?_bindPosition] at hfind
          split at hfind
          next hitem =>
            rw [← Option.some.inj hfind]
            exact eq_of_identity (h.inStore _ hhead) (h.inStore p (htail hp))
              (h.agreeing _ hhead p (htail hp) var hitem hvar)
          next => exact h.free p (htail hp) var bound hvar hfind }
  · intro hex
    obtain ⟨⟨hin, hfits, hfollows, hmeets, hfree⟩, h⟩ := hex
    -- a later position with the variable of the step holds what the step bound
    have hlater : ∀ p ∈ rest.zip trail, ∀ var, item.var = some var → p.1.var = some var →
        entity = p.2 := by
      intro p hp var hitem hvar
      refine h.free p hp var entity hvar ?_
      rw [find?_bindPosition, if_pos hitem]
    exact
      { length := congrArg Nat.succ h.length
        inStore := fun p hp => by
          -- each condition: at the head it is that of the step, further on that of the rest
          rcases List.mem_cons.1 hp with rfl | hp
          · exact hin
          · exact h.inStore p hp
        fits := fun p hp => by
          rcases List.mem_cons.1 hp with rfl | hp
          · exact hfits
          · exact h.fits p hp
        connected := ⟨hfollows, h.connected⟩
        agreeing := by
          intro p hp q hq var hpvar hqvar
          rcases List.mem_cons.1 hp with rfl | hp
          · rcases List.mem_cons.1 hq with rfl | hq
            · rfl
            · exact congrArg Entity.identity (hlater q hq var hpvar hqvar)
          · rcases List.mem_cons.1 hq with rfl | hq
            · exact congrArg Entity.identity (hlater p hp var hqvar hpvar).symm
            · exact h.agreeing p hp q hq var hpvar hqvar
        meets := fun p hp => by
          rcases List.mem_cons.1 hp with rfl | hp
          · exact hmeets
          · exact h.meets p hp
        free := by
          intro p hp var bound hvar hfind
          rcases List.mem_cons.1 hp with rfl | hp
          · exact hfree var bound hvar hfind
          · by_cases hitem : item.var = some var
            · exact (hfree var bound hitem hfind).trans (hlater p hp var hitem hvar)
            · refine h.free p hp var bound hvar ?_
              rw [find?_bindPosition, if_neg hitem]
              exact hfind }

/-- **The trails are the answers to the rest of a chain.** -/
theorem mem_trails_iff (hstore : store.Coherent) {items : PatternElement PropertyMap} :
    ∀ {previous : Option Entity} {bindings : Bindings} {trail : List Entity},
      BoundInStore store bindings →
      (trail ∈ trails store condition items previous bindings
        ↔ Trail store condition items previous bindings trail) := by
  induction items with
  | nil =>
    intro previous bindings trail _
    rw [trails, List.mem_singleton, trail_nil_iff]
  | cons item rest ih =>
    intro previous bindings trail hbound
    rw [trails, List.mem_flatMap]
    constructor
    · intro hex
      obtain ⟨⟨entity, after⟩, hstep, hmem⟩ := hex
      obtain ⟨trail', htrail, rfl⟩ := List.mem_map.1 hmem
      obtain ⟨hin, hfits, hfollows, hmeets, hfree, rfl⟩ := (mem_steps_iff hstore hbound).1 hstep
      exact trail_cons_iff.2 ⟨⟨hin, hfits, hfollows, hmeets, hfree⟩,
        (ih (hbound.bindPosition hin)).1 htrail⟩
    · intro h
      cases trail with
      | nil => cases h.length
      | cons entity trail =>
        obtain ⟨⟨hin, hfits, hfollows, hmeets, hfree⟩, htrail⟩ := trail_cons_iff.1 h
        refine ⟨(entity, bindPosition bindings (item, entity)), ?_, ?_⟩
        · exact (mem_steps_iff hstore hbound).2 ⟨hin, hfits, hfollows, hmeets, hfree, rfl⟩
        · exact List.mem_map.2 ⟨trail, (ih (hbound.bindPosition hin)).2 htrail, rfl⟩

end PropertyGraph.Search
