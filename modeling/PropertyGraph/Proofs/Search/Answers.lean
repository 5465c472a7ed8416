/-
  PropertyGraph.Proofs.Search.Answers
  ───────────────────────────────────
  **A SEARCH IS SOUND, COMPLETE AND ORDERED.**

  `Answers` says that a list of solutions is the list of all admissible
  assignments of a pattern, each once and in the order of their ids.  One
  chain has it by its trails (`answers_element`), and joining keeps it
  (`Answers.join`): an assignment of two patterns is one of each, agreeing
  on the variables they share.  By induction along the chains every pattern
  has it, whatever its chains look like.

      Answers.join          — the step: two patterns side by side
      exists_answers        — every pattern, in a coherent store
      pattern_eq_map        — every pattern, in a reachable store
-/
import PropertyGraph.Proofs.Search.Trail

namespace PropertyGraph.Search

open PropertyGraph.Query

variable {store : Store} {condition : Option (Condition Value)}
  {chains left right : GraphPattern} {a b : List (List Entity)}

/-! ## §1. Positions of two patterns. -/

theorem Admissible.length_eq (h : Admissible store condition chains a) :
    a.length = chains.length := by
  have hlengths := congrArg List.length h.lengths
  rw [List.length_map, List.length_map] at hlengths
  exact hlengths

theorem positions_append (h : a.length = left.length) :
    positions (left ++ right) (a ++ b) = positions left a ++ positions right b := by
  unfold positions
  rw [List.zipWith_append h.symm, List.flatten_append]

theorem positions_singleton (element : PatternElement PropertyMap) (trail : List Entity) :
    positions [element] [trail] = element.zip trail :=
  List.append_nil _

theorem Agreeing.symm {ps qs : List (PatternItem PropertyMap × Entity)} (h : Agreeing ps qs) :
    Agreeing qs ps :=
  fun q hq p hp var hqvar hpvar => (h p hp q hq var hpvar hqvar).symm

theorem agreeing_append_iff {ps qs : List (PatternItem PropertyMap × Entity)} :
    Agreeing (ps ++ qs) (ps ++ qs) ↔ Agreeing ps ps ∧ Agreeing qs qs ∧ Agreeing ps qs := by
  constructor
  · intro h
    refine ⟨fun p hp q hq => ?_, fun p hp q hq => ?_, fun p hp q hq => ?_⟩
    · exact h p (List.mem_append_left qs hp) q (List.mem_append_left qs hq)
    · exact h p (List.mem_append_right ps hp) q (List.mem_append_right ps hq)
    · exact h p (List.mem_append_left qs hp) q (List.mem_append_right ps hq)
  · intro hex p hp q hq
    obtain ⟨hps, hqs, hboth⟩ := hex
    rcases List.mem_append.1 hp with hp | hp
    · rcases List.mem_append.1 hq with hq | hq
      · exact hps p hp q hq
      · exact hboth p hp q hq
    · rcases List.mem_append.1 hq with hq | hq
      · exact hboth.symm p hp q hq
      · exact hqs p hp q hq

/-- **An assignment of two patterns** is one of each, where shared variables
agree. -/
theorem admissible_append_iff (hleft : left ≠ []) (hright : right ≠ [])
    (hlength : a.length = left.length) :
    Admissible store condition (left ++ right) (a ++ b)
      ↔ Admissible store condition left a ∧ Admissible store condition right b
        ∧ Agreeing (positions left a) (positions right b) := by
  have hpositions : positions (left ++ right) (a ++ b) = positions left a ++ positions right b :=
    positions_append hlength
  constructor
  · intro h
    obtain ⟨hleftItems, hrightItems⟩ := List.forall_mem_append.1 h.nonempty.2
    have hlengths := h.lengths
    rw [List.map_append, List.map_append] at hlengths
    -- the lengths of the chains say where the first pattern ends
    obtain ⟨hlengthsLeft, hlengthsRight⟩ :=
      List.append_inj hlengths (by rw [List.length_map, List.length_map, hlength])
    obtain ⟨hin, hinRight⟩ := List.forall_mem_append.1 (hpositions ▸ h.inStore)
    obtain ⟨hfits, hfitsRight⟩ := List.forall_mem_append.1 (hpositions ▸ h.fits)
    obtain ⟨hconnected, hconnectedRight⟩ := List.forall_mem_append.1 h.connected
    obtain ⟨hmeets, hmeetsRight⟩ := List.forall_mem_append.1 (hpositions ▸ h.meets)
    have hagreeing := h.agreeing
    rw [hpositions] at hagreeing
    obtain ⟨hagreeingLeft, hagreeingRight, hboth⟩ := agreeing_append_iff.1 hagreeing
    exact ⟨⟨⟨hleft, hleftItems⟩, hlengthsLeft, hin, hfits, hconnected, hagreeingLeft, hmeets⟩,
      ⟨⟨hright, hrightItems⟩, hlengthsRight, hinRight, hfitsRight, hconnectedRight,
        hagreeingRight, hmeetsRight⟩, hboth⟩
  · intro hex
    obtain ⟨ha, hb, hboth⟩ := hex
    exact
      { nonempty := ⟨fun h => hleft (List.append_eq_nil_iff.1 h).1,
          List.forall_mem_append.2 ⟨ha.nonempty.2, hb.nonempty.2⟩⟩
        lengths := by rw [List.map_append, List.map_append, ha.lengths, hb.lengths]
        inStore := hpositions ▸ List.forall_mem_append.2 ⟨ha.inStore, hb.inStore⟩
        fits := hpositions ▸ List.forall_mem_append.2 ⟨ha.fits, hb.fits⟩
        connected := List.forall_mem_append.2 ⟨ha.connected, hb.connected⟩
        agreeing := by
          rw [hpositions]
          exact agreeing_append_iff.2 ⟨ha.agreeing, hb.agreeing, hboth⟩
        meets := hpositions ▸ List.forall_mem_append.2 ⟨ha.meets, hb.meets⟩ }

/-! ## §2. Solutions of two patterns. -/

/-- A solution binds the variables of its pattern to what stands there. -/
theorem Admissible.find?_bindingsOf (h : Admissible store condition chains a) {var : String}
    {entity : Entity} :
    (bindingsOf chains a).find? var = some entity
      ↔ ∃ p ∈ positions chains a, p.1.var = some var ∧ p.2 = entity := by
  have hnone : ∀ (e bound : Entity), (∅ : Bindings).find? var = some bound → bound = e :=
    fun _ _ hfind => nomatch hfind
  have hsame : ∀ p ∈ positions chains a, p.1.var = some var →
      ∀ q ∈ positions chains a, q.1.var = some var → q.2 = p.2 := by
    intro p hp hpvar q hq hqvar
    exact eq_of_identity (h.inStore q hq) (h.inStore p hp) (h.agreeing q hq p hp var hqvar hpvar)
  constructor
  · intro hfind
    by_cases hex : ∃ p ∈ positions chains a, p.1.var = some var
    · obtain ⟨p, hp, hvar⟩ := hex
      have hbound := (find?_bindPositions (hsame p hp hvar) (hnone p.2)).2 (.inr ⟨p, hp, hvar⟩)
      exact ⟨p, hp, hvar, Option.some.inj (hbound.symm.trans hfind)⟩
    · have hvacuous : ∀ p ∈ positions chains a, p.1.var = some var → p.2 = entity :=
        fun p hp hvar => absurd ⟨p, hp, hvar⟩ hex
      rcases (find?_bindPositions hvacuous (hnone entity)).1 hfind with hempty | hex'
      · cases hempty
      · exact absurd hex' hex
  · intro hparts
    obtain ⟨p, hp, hvar, rfl⟩ := hparts
    exact (find?_bindPositions (hsame p hp hvar) (hnone p.2)).2 (.inr ⟨p, hp, hvar⟩)

/-- Solutions agree if and only if their assignments do. -/
theorem agrees_bindingsOf_iff (ha : Admissible store condition left a)
    (hb : Admissible store condition right b) :
    (bindingsOf left a).agrees (bindingsOf right b) = true
      ↔ Agreeing (positions left a) (positions right b) := by
  rw [Bindings.agrees_iff]
  constructor
  · intro h p hp q hq var hpvar hqvar
    exact h var p.2 q.2 (ha.find?_bindingsOf.2 ⟨p, hp, hpvar, rfl⟩)
      (hb.find?_bindingsOf.2 ⟨q, hq, hqvar, rfl⟩)
  · intro h var e f he hf
    obtain ⟨p, hp, hpvar, rfl⟩ := ha.find?_bindingsOf.1 he
    obtain ⟨q, hq, hqvar, rfl⟩ := hb.find?_bindingsOf.1 hf
    exact h p hp q hq var hpvar hqvar

/-- The solution of both patterns is the union of the solutions of each. -/
theorem bindingsOf_append (hleft : left ≠ []) (hright : right ≠ [])
    (ha : Admissible store condition left a) (hb : Admissible store condition right b)
    (hboth : Agreeing (positions left a) (positions right b)) :
    bindingsOf (left ++ right) (a ++ b) = (bindingsOf left a).union (bindingsOf right b) := by
  have hab := (admissible_append_iff hleft hright ha.length_eq).2 ⟨ha, hb, hboth⟩
  -- a shared variable means one entity, since identities are unique in a store
  have heq : ∀ var e f, (bindingsOf left a).find? var = some e →
      (bindingsOf right b).find? var = some f → e = f := by
    intro var e f he hf
    obtain ⟨p, hp, hpvar, rfl⟩ := ha.find?_bindingsOf.1 he
    obtain ⟨q, hq, hqvar, rfl⟩ := hb.find?_bindingsOf.1 hf
    exact eq_of_identity (ha.inStore p hp) (hb.inStore q hq) (hboth p hp q hq var hpvar hqvar)
  -- both sides bind a variable to what stands at some position with it
  apply Bindings.ext_find?
  intro var
  rw [Bindings.find?_union heq, Option.ext_iff]
  intro entity
  rw [hab.find?_bindingsOf, positions_append ha.length_eq]
  constructor
  · intro h
    obtain ⟨p, hp, hvar, rfl⟩ := h
    rcases List.mem_append.1 hp with hp | hp
    · rw [ha.find?_bindingsOf.2 ⟨p, hp, hvar, rfl⟩]
      rfl
    · have hfound := hb.find?_bindingsOf.2 ⟨p, hp, hvar, rfl⟩
      cases hl : (bindingsOf left a).find? var with
      | none => rw [hfound]; rfl
      | some e => rw [heq var e p.2 hl hfound]; rfl
  · intro hfind
    cases hl : (bindingsOf left a).find? var with
    | some e =>
      rw [hl, Option.some_or] at hfind
      obtain ⟨p, hp, hvar, heq'⟩ := ha.find?_bindingsOf.1 hl
      exact ⟨p, List.mem_append_left _ hp, hvar, heq'.trans (Option.some.inj hfind)⟩
    | none =>
      rw [hl, Option.none_or] at hfind
      obtain ⟨p, hp, hvar, heq'⟩ := hb.find?_bindingsOf.1 hfind
      exact ⟨p, List.mem_append_right _ hp, hvar, heq'⟩

/-! ## §3. The order. -/

theorem append_lt_append {l l' s s' : List Nat} (hlength : l.length = l'.length) (h : l < l') :
    l ++ s < l' ++ s' := by
  induction l generalizing l' with
  | nil =>
    rw [List.length_eq_zero_iff.1 hlength.symm] at h
    exact absurd h (List.not_lt_nil [])
  | cons n l ih =>
    cases l' with
    | nil => cases hlength
    | cons n' l' =>
      rcases List.cons_lt_cons_iff.1 h with hlt | ⟨heq, hlt⟩
      · exact List.cons_lt_cons_iff.2 (.inl hlt)
      · exact List.cons_lt_cons_iff.2 (.inr ⟨heq, ih (Nat.succ.inj hlength) hlt⟩)

theorem idsOf_append (a b : List (List Entity)) : idsOf (a ++ b) = idsOf a ++ idsOf b := by
  unfold idsOf
  rw [List.flatten_append, List.map_append]

/-- Assignments of one pattern are equally long. -/
theorem Admissible.length_idsOf_eq {b : List (List Entity)}
    (ha : Admissible store condition chains a) (hb : Admissible store condition chains b) :
    (idsOf a).length = (idsOf b).length := by
  unfold idsOf
  rw [List.length_map, List.length_map, List.length_flatten, List.length_flatten, ha.lengths,
    hb.lengths]

/-! ## §4. All answers. -/

/-- `solutions` are those of all admissible assignments, each once and in the
order of their ids. -/
structure Answers (store : Store) (condition : Option (Condition Value))
    (pattern : GraphPattern) (solutions : List Bindings)
    (assignments : List (List (List Entity))) : Prop where
  mem_iff : ∀ a, a ∈ assignments ↔ Admissible store condition pattern a
  ordered : assignments.Pairwise (fun a b => idsOf a < idsOf b)
  solutions_eq : solutions = assignments.map (bindingsOf pattern)

/-- The assignments of two patterns that agree, left side outermost. -/
def joined (left right : GraphPattern) (as bs : List (List (List Entity))) :
    List (List (List Entity)) :=
  as.flatMap (fun a =>
    (bs.filter (fun b => (bindingsOf left a).agrees (bindingsOf right b))).map (a ++ ·))

/-- **Joining the answers of two patterns answers both together.** -/
theorem Answers.join {as bs : List (List (List Entity))} {ls rs : List Bindings}
    (hleft : left ≠ []) (hright : right ≠ [])
    (ha : Answers store condition left ls as) (hb : Answers store condition right rs bs) :
    Answers store condition (left ++ right) (Search.join ls rs) (joined left right as bs) where
  mem_iff c := by
    unfold joined
    rw [List.mem_flatMap]
    constructor
    · intro hex
      obtain ⟨a, hmem, hc⟩ := hex
      obtain ⟨b, hfilter, rfl⟩ := List.mem_map.1 hc
      obtain ⟨hmem', hagrees⟩ := List.mem_filter.1 hfilter
      have hadm := (ha.mem_iff a).1 hmem
      have hadm' := (hb.mem_iff b).1 hmem'
      exact (admissible_append_iff hleft hright hadm.length_eq).2
        ⟨hadm, hadm', (agrees_bindingsOf_iff hadm hadm').1 hagrees⟩
    · intro h
      -- the assignment is cut where the second pattern begins
      have hcut : (c.take left.length).length = left.length := by
        have hlength := h.length_eq
        rw [List.length_append] at hlength
        rw [List.length_take]
        omega
      rw [← List.take_append_drop left.length c] at h
      obtain ⟨hadm, hadm', hboth⟩ := (admissible_append_iff hleft hright hcut).1 h
      refine ⟨_, (ha.mem_iff _).2 hadm, List.mem_map.2 ⟨c.drop left.length, ?_, ?_⟩⟩
      · exact List.mem_filter.2
          ⟨(hb.mem_iff _).2 hadm', (agrees_bindingsOf_iff hadm hadm').2 hboth⟩
      · exact List.take_append_drop left.length c
  ordered := by
    unfold joined
    rw [List.pairwise_flatMap]
    -- with one left side the right side decides, with two the left
    refine ⟨fun a _ => ?_, ha.ordered.imp_of_mem (fun {a a'} hmem hmem' hlt => ?_)⟩
    · rw [List.pairwise_map]
      refine (hb.ordered.filter _).imp (fun hlt => ?_)
      rw [idsOf_append, idsOf_append]
      exact List.append_left_lt hlt
    · intro c hc c' hc'
      obtain ⟨b, -, rfl⟩ := List.mem_map.1 hc
      obtain ⟨b', -, rfl⟩ := List.mem_map.1 hc'
      rw [idsOf_append, idsOf_append]
      refine append_lt_append ?_ hlt
      exact ((ha.mem_iff a).1 hmem).length_idsOf_eq ((ha.mem_iff a').1 hmem')
  solutions_eq := by
    -- the join through its index finds what nested loops find
    rw [join_eq, ha.solutions_eq, hb.solutions_eq]
    unfold nestedLoopJoin joined
    rw [List.flatMap_map, List.map_flatMap, List.flatMap_def, List.flatMap_def]
    refine congrArg List.flatten (List.map_congr_left (fun a hmem => ?_))
    unfold joinOne
    rw [List.filter_map, List.map_map, List.map_map]
    refine List.map_congr_left (fun b hmem' => ?_)
    obtain ⟨hmem', hagrees⟩ := List.mem_filter.1 hmem'
    have hadm := (ha.mem_iff a).1 hmem
    have hadm' := (hb.mem_iff b).1 hmem'
    exact (bindingsOf_append hleft hright hadm hadm'
      ((agrees_bindingsOf_iff hadm hadm').1 hagrees)).symm

theorem boundInStore_empty : BoundInStore store ∅ :=
  fun _ _ hfind => nomatch hfind

theorem admissible_singleton_iff {element : PatternElement PropertyMap} {trail : List Entity} :
    Admissible store condition [element] [trail]
      ↔ element ≠ [] ∧ Trail store condition element none ∅ trail := by
  have hpositions := positions_singleton element trail
  constructor
  · intro h
    refine ⟨h.nonempty.2 element List.mem_cons_self, ?_⟩
    exact
      { length := (List.cons.inj h.lengths).1
        inStore := hpositions ▸ h.inStore
        fits := hpositions ▸ h.fits
        connected := h.connected trail List.mem_cons_self
        agreeing := hpositions ▸ h.agreeing
        meets := hpositions ▸ h.meets
        free := fun _ _ _ _ _ hfind => nomatch hfind }
  · intro hex
    obtain ⟨hne, h⟩ := hex
    exact
      { nonempty := ⟨List.cons_ne_nil _ _, fun e he => List.mem_singleton.1 he ▸ hne⟩
        lengths := congrArg (fun n => [n]) h.length
        inStore := hpositions.symm ▸ h.inStore
        fits := hpositions.symm ▸ h.fits
        connected := fun chain hchain => List.mem_singleton.1 hchain ▸ h.connected
        agreeing := hpositions.symm ▸ h.agreeing
        meets := hpositions.symm ▸ h.meets }

/-- One chain is answered by its trails. -/
theorem answers_element (hstore : store.Coherent) (condition : Option (Condition Value))
    (chain : PatternElement PropertyMap) :
    ∃ assignments,
      Answers store condition [chain] (element store condition chain) assignments := by
  have hcases : ∀ a, Admissible store condition [chain] a → ∃ trail, a = [trail] := by
    intro a h
    exact List.length_eq_one_iff.1 h.length_eq
  by_cases hnil : chain = []
  -- an empty chain has no answers, and the pattern is not admissible
  · subst hnil
    refine ⟨[], fun a => ⟨fun h => absurd h List.not_mem_nil, fun h => ?_⟩,
      List.Pairwise.nil, rfl⟩
    exact absurd rfl (h.nonempty.2 [] List.mem_cons_self)
  -- otherwise its answers are its trails
  · refine ⟨(trails store condition chain none ∅).map (fun trail => [trail]),
      fun a => ?_, ?_, ?_⟩
    · rw [List.mem_map]
      constructor
      · intro hex
        obtain ⟨trail, hmem, rfl⟩ := hex
        exact admissible_singleton_iff.2
          ⟨hnil, (mem_trails_iff hstore boundInStore_empty).1 hmem⟩
      · intro h
        obtain ⟨trail, rfl⟩ := hcases a h
        exact ⟨trail, (mem_trails_iff hstore boundInStore_empty).2
          (admissible_singleton_iff.1 h).2, rfl⟩
    · rw [List.pairwise_map]
      refine (pairwise_trails hstore).imp (fun {s t} hlt => ?_)
      show ([s].flatten).map numberOf < ([t].flatten).map numberOf
      rw [List.flatten_singleton, List.flatten_singleton]
      exact hlt
    · unfold element
      rw [if_neg (fun h => hnil (List.isEmpty_iff.1 h)), List.map_map]
      show search store condition chain (cursorAfter none) ∅ = _
      rw [search_eq_map_trails hstore boundInStore_empty]
      refine List.map_congr_left (fun trail _ => ?_)
      show _ = bindPositions ∅ (positions [chain] [trail])
      rw [positions_singleton]

/-- Answers of a pattern, joined with those of further chains. -/
theorem Answers.foldl_join (hstore : store.Coherent) {chains : GraphPattern} :
    ∀ {left : GraphPattern} {ls : List Bindings} {as : List (List (List Entity))},
      left ≠ [] → Answers store condition left ls as →
      ∃ assignments, Answers store condition (left ++ chains)
        ((chains.map (element store condition)).foldl Search.join ls) assignments := by
  induction chains with
  | nil =>
    intro left ls as _ ha
    exact ⟨as, (List.append_nil left).symm ▸ ha⟩
  | cons chain rest ih =>
    intro left ls as hleft ha
    obtain ⟨bs, hb⟩ := answers_element hstore condition chain
    have hjoin := ha.join hleft (List.cons_ne_nil chain []) hb
    obtain ⟨assignments, h⟩ := ih (fun h => hleft (List.append_eq_nil_iff.1 h).1) hjoin
    rw [List.append_assoc] at h
    exact ⟨assignments, h⟩

/-- **Every pattern is answered** in a coherent store. -/
theorem exists_answers (hstore : store.Coherent) (condition : Option (Condition Value))
    (chains : GraphPattern) :
    ∃ assignments,
      Answers store condition chains (pattern store condition chains) assignments := by
  cases chains with
  | nil =>
    refine ⟨[], fun a => ⟨fun h => absurd h List.not_mem_nil, fun h => ?_⟩,
      List.Pairwise.nil, rfl⟩
    exact absurd rfl h.nonempty.1
  | cons chain rest =>
    obtain ⟨as, ha⟩ := answers_element hstore condition chain
    exact ha.foldl_join hstore (List.cons_ne_nil chain [])

/-- **A search is sound, complete and ordered.**  In a reachable store it
finds the solution of every admissible assignment, once each, in the order
of the ids along the pattern. -/
theorem pattern_eq_map_bindingsOf (store : Store) (h : store.Reachable)
    (condition : Option (Condition Value)) (chains : GraphPattern) :
    ∃ assignments : List (List (List Entity)),
      (∀ a, a ∈ assignments ↔ Admissible store condition chains a)
        ∧ assignments.Pairwise (fun a b => idsOf a < idsOf b)
        ∧ pattern store condition chains = assignments.map (bindingsOf chains) := by
  obtain ⟨assignments, hanswers⟩ := exists_answers h.coherent condition chains
  exact ⟨assignments, hanswers.mem_iff, hanswers.ordered, hanswers.solutions_eq⟩

/-- Two nodes that know each other, one of whom is fond of itself. -/
def pairRun : List StoreOperation :=
  [.createNode ["A"] ∅, .createNode ["A", "B"] ∅, .createRelationship "KNOWS" 1 2 ∅,
    .createRelationship "KNOWS" 2 1 ∅, .createRelationship "LIKES" 2 2 ∅]

/-- `(x:A)-[:KNOWS]->(y), (y)-[r]->(z)` as chains. -/
def pairChains : GraphPattern :=
  [[.node ⟨some "x", some "A", ∅⟩, .relationship ⟨none, some "KNOWS", ∅⟩,
      .node ⟨some "y", none, ∅⟩],
    [.node ⟨some "y", none, ∅⟩, .relationship ⟨some "r", none, ∅⟩, .node ⟨some "z", none, ∅⟩]]

theorem pattern_eq_map_bindingsOf_pairChains :
    (Store.empty.run pairRun).2.Reachable
      ∧ (∃ assignments : List (List (List Entity)),
        (∀ a, a ∈ assignments ↔ Admissible (Store.empty.run pairRun).2 none pairChains a)
          ∧ assignments.Pairwise (fun a b => idsOf a < idsOf b)
          ∧ pattern (Store.empty.run pairRun).2 none pairChains
              = assignments.map (bindingsOf pairChains))
      ∧ (pattern (Store.empty.run pairRun).2 none pairChains).map
          (fun solution => (solution.find? "r").map numberOf) = [some 2, some 3, some 1] := by
  have hreach : (Store.empty.run pairRun).2.Reachable :=
    ⟨pairRun, by decide +kernel, rfl⟩
  exact ⟨hreach, pattern_eq_map_bindingsOf _ hreach none pairChains, by decide +kernel⟩

end PropertyGraph.Search
