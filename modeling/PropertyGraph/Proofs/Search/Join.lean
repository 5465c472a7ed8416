/-
  PropertyGraph.Proofs.Search.Join
  ────────────────────────────────
  **THE INDEXED JOIN IS THE NESTED LOOP.**

  `join` takes the shared variables from the first solution of each side
  and looks partners up by their entities.  That can lose nothing: partners
  that agree have equal keys, so filtering the partners under a key by
  agreement gives the same list as filtering all of them.  No assumption on
  the two lists is needed; solutions may bind different variables.

      find?_bind, find?_union  — growth, seen through look-ups
      agrees_iff               — agreement, variable by variable
      join_eq                  — the join is the nested loop
-/
import PropertyGraph.Proofs.SortedMap.Membership
import PropertyGraph.Search.Join

namespace PropertyGraph

/-! ## §1. Bindings through look-ups. -/

namespace Bindings

/-- Look-ups determine bindings. -/
theorem ext_find? {left right : Bindings} (h : ∀ var, left.find? var = right.find? var) :
    left = right := by
  have hentries : left.entries = right.entries := SortedMap.ext_find? h
  cases left
  cases right
  exact congrArg Bindings.mk hentries

theorem find?_bind (bindings : Bindings) (var sought : String) (entity : Entity) :
    (bindings.bind var entity).find? sought
      = if sought = var then some entity else bindings.find? sought :=
  SortedMap.find?_insert_eq bindings.entries var sought entity

theorem contains_eq_true_iff {bindings : Bindings} {var : String} :
    bindings.contains var = true ↔ ∃ entity, bindings.find? var = some entity :=
  SortedMap.contains_eq_true_iff

/-- Extending keeps what is bound and adds the rest. -/
theorem find?_extend (bindings extra : Bindings) (sought : String) :
    (bindings.extend extra).find? sought = (bindings.find? sought).or (extra.find? sought) := by
  -- over any entries and any start, since the bindings change along the fold
  have key : ∀ (entries : List (String × Entity)) (bindings : Bindings),
      (entries.foldl
        (fun bindings entry =>
          if bindings.contains entry.1 then bindings else bindings.bind entry.1 entry.2)
        bindings).find? sought
        = (bindings.find? sought).or (SortedEntries.find? sought entries) := by
    intro entries
    induction entries with
    | nil => intro bindings; exact Option.or_none.symm
    | cons entry rest ih =>
      obtain ⟨var, entity⟩ := entry
      intro bindings
      rw [List.foldl_cons, ih, SortedEntries.find?]
      show ((if bindings.contains var then bindings else bindings.bind var entity).find? sought).or
          (SortedEntries.find? sought rest)
        = (bindings.find? sought).or
          (if compare sought var = .eq then some entity else SortedEntries.find? sought rest)
      by_cases hvar : sought = var
      · -- the entry is the one sought: it counts unless the variable is bound already
        subst hvar
        rw [if_pos Std.ReflOrd.compare_self]
        cases hfound : bindings.find? sought with
        | none =>
          have hnot : bindings.contains sought = false := SortedMap.contains_eq_false_iff.2 hfound
          rw [if_neg (by rw [hnot]; decide), find?_bind, if_pos rfl]
          rfl
        | some bound =>
          rw [if_pos (contains_eq_true_iff.2 ⟨bound, hfound⟩), hfound]
          rfl
      · rw [if_neg (fun heq => hvar (Std.compare_eq_iff_eq.1 heq))]
        split
        · rfl
        · rw [find?_bind, if_neg hvar]
  exact key extra.entries.entries bindings

/-- Where both sides mean the same, the union is the left side and what the
right side adds. -/
theorem find?_union {left right : Bindings}
    (h : ∀ var e f, left.find? var = some e → right.find? var = some f → e = f)
    (sought : String) :
    (left.union right).find? sought = (left.find? sought).or (right.find? sought) := by
  unfold union
  split
  · exact find?_extend left right sought
  · rw [find?_extend]
    cases hl : left.find? sought with
    | none => exact Option.or_none
    | some e =>
      cases hr : right.find? sought with
      | none => rfl
      | some f => rw [h sought e f hl hr]

/-- Two solutions agree if each variable bound in both means one entity. -/
theorem agrees_iff {left right : Bindings} :
    left.agrees right = true
      ↔ ∀ var e f, left.find? var = some e → right.find? var = some f
          → e.identity = f.identity := by
  unfold agrees
  rw [List.all_eq_true]
  constructor
  · intro h var e f he hf
    have hentry := h (var, f) (SortedMap.find?_eq_some_iff.1 hf)
    simp only [he, beq_iff_eq] at hentry
    exact hentry
  · intro h hex hmem
    obtain ⟨var, f⟩ := hex
    have hf : right.find? var = some f := SortedMap.find?_eq_some_iff.2 hmem
    cases he : left.find? var with
    | none => simp only [he]
    | some e =>
      simp only [he]
      exact beq_iff_eq.2 (h var e f he hf)

/-- Solutions that agree have one key, if they have one at all. -/
theorem key?_eq_of_agrees {left right : Bindings} (h : left.agrees right = true) :
    ∀ {vars : List String} {k l : List EntityRef},
      left.key? vars = some k → right.key? vars = some l → k = l := by
  intro vars
  induction vars with
  | nil =>
    intro k l hk hl
    rw [key?] at hk hl
    rw [← Option.some.inj hk, ← Option.some.inj hl]
  | cons var vars ih =>
    intro k l hk hl
    rw [key?] at hk hl
    split at hk
    next e k' he hk' =>
      split at hl
      next f l' hf hl' =>
        rw [← Option.some.inj hk, ← Option.some.inj hl, ih hk' hl',
          agrees_iff.1 h var e f he hf]
      next => cases hl
    next => cases hk

end Bindings

/-! ## §2. Keys and their index. -/

namespace Search

/-- All solutions have been keyed, and each with its own key. -/
theorem keyed?_eq_some {shared : List String} :
    ∀ {solutions : List Bindings} {keyed : List (List EntityRef × Bindings)},
      keyed? shared solutions = some keyed →
        keyed.map (·.2) = solutions ∧ ∀ p ∈ keyed, p.2.key? shared = some p.1 := by
  intro solutions
  induction solutions with
  | nil =>
    intro keyed h
    obtain rfl := Option.some.inj h
    exact ⟨rfl, fun p hp => absurd hp List.not_mem_nil⟩
  | cons bindings rest ih =>
    intro keyed h
    rw [keyed?] at h
    split at h
    next key others hkey hothers =>
      obtain rfl := Option.some.inj h
      obtain ⟨hmap, hkeys⟩ := ih hothers
      refine ⟨by rw [List.map_cons, hmap], fun p hp => ?_⟩
      rcases List.mem_cons.1 hp with rfl | hp
      · exact hkey
      · exact hkeys p hp
    next => cases h

/-- Under a code the index holds the solutions with that code, in order. -/
theorem find?_joinIndex (code : List Nat) (keyed : List (List EntityRef × Bindings)) :
    ((joinIndex keyed).find? code).getD []
      = (keyed.filter (fun p => p.1.map EntityRef.code == code)).map (·.2) := by
  induction keyed with
  | nil => rfl
  | cons p rest ih =>
    obtain ⟨key, bindings⟩ := p
    rw [joinIndex, SortedMap.find?_insert_eq]
    by_cases h : code = key.map EntityRef.code
    · have hpos : (key.map EntityRef.code == code) = true := beq_iff_eq.2 h.symm
      rw [if_pos h, List.filter_cons, if_pos hpos, List.map_cons, ← ih, h]
      rfl
    · have hneg : ¬ (key.map EntityRef.code == code) = true := fun heq => h (beq_iff_eq.1 heq).symm
      rw [if_neg h, List.filter_cons, if_neg hneg, ih]

/-! ## §3. The join. -/

/-- Looking only at the partners under the key of `left` loses no partner
that agrees. -/
theorem joinOne_bucket {shared : List String} {left : Bindings} {right : List Bindings}
    {keyed : List (List EntityRef × Bindings)} {key : List EntityRef}
    (hkeyed : keyed? shared right = some keyed) (hkey : left.key? shared = some key) :
    joinOne left (((joinIndex keyed).find? (key.map EntityRef.code)).getD [])
      = joinOne left right := by
  obtain ⟨hmap, hkeys⟩ := keyed?_eq_some hkeyed
  have hfilter : keyed.filter (fun p => left.agrees p.2 && (p.1.map EntityRef.code
      == key.map EntityRef.code)) = keyed.filter (fun p => left.agrees p.2) := by
    refine List.filter_congr (fun p hp => ?_)
    cases hagrees : left.agrees p.2 with
    | false => rfl
    | true =>
      have heq : key = p.1 := Bindings.key?_eq_of_agrees hagrees hkey (hkeys p hp)
      rw [heq, beq_self_eq_true]
      rfl
  unfold joinOne
  rw [find?_joinIndex, ← hmap, List.filter_map, List.filter_map, List.filter_filter]
  exact congrArg (fun partners => (partners.map (·.2)).map left.union) hfilter

/-- **The join is the nested loop**, whatever the two sides bind. -/
theorem join_eq (left right : List Bindings) : join left right = nestedLoopJoin left right := by
  unfold join
  split
  next l ls r rs =>
    dsimp only
    split
    next var vars keyed hshared hkeyed =>
      rw [indexedJoin, nestedLoopJoin, hshared]
      rw [hshared] at hkeyed
      congr 1
      funext l'
      split
      next key hkey => exact joinOne_bucket hkeyed hkey
      next => rfl
    next => rfl
  next hnone =>
    cases left with
    | nil => rfl
    | cons l ls =>
      cases right with
      | nil =>
        rw [nestedLoopJoin]
        exact (List.flatMap_eq_nil_iff.2 (fun _ _ => rfl)).symm
      | cons r rs => exact absurd rfl (hnone l ls r rs rfl)

end Search

end PropertyGraph
