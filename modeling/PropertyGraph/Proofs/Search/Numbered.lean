/-
  PropertyGraph.Proofs.Search.Numbered
  ────────────────────────────────────
  **ASSIGNMENTS BY THE NUMBER OF A POSITION.**

  The positions of all chains of a pattern are numbered through, as they are
  when a pattern is made.  A function from numbers to entities then gives an
  assignment of the pattern (`numbered`), whose positions are those of the
  pattern, one after the other (`mem_positions_numbered_iff`).  It is
  connected if each entity may follow the one before it within a chain.
-/
import PropertyGraph.Proofs.Search.Assignment

namespace PropertyGraph.Search

open PropertyGraph.Query

variable {f : Nat → Entity} {pattern : GraphPattern} {n : Nat}

/-- The entities for the positions of a pattern that is numbered from `n`. -/
def numbered (f : Nat → Entity) (n : Nat) : GraphPattern → List (List Entity)
  | [] => []
  | chain :: rest =>
    (List.range' n chain.length).map f :: numbered f (n + chain.length) rest

theorem lengths_numbered : ∀ {n : Nat} {pattern : GraphPattern},
    (numbered f n pattern).map List.length = pattern.map List.length
  | _, [] => rfl
  | n, chain :: rest => by
    rw [numbered, List.map_cons, List.map_cons, lengths_numbered, List.length_map,
      List.length_range']

/-- The positions of one chain. -/
theorem mem_zip_range'_iff {chain : PatternElement PropertyMap}
    {p : PatternItem PropertyMap × Entity} :
    p ∈ chain.zip ((List.range' n chain.length).map f)
      ↔ ∃ i, chain[i]? = some p.1 ∧ p.2 = f (n + i) := by
  rw [List.mem_iff_getElem?]
  refine exists_congr (fun i => ?_)
  rw [List.getElem?_zip_eq_some, List.getElem?_map]
  refine and_congr_right (fun hitem => ?_)
  have hlt : i < chain.length := (List.getElem?_eq_some_iff.1 hitem).1
  rw [List.getElem?_range' hlt, Option.map_some, Option.some.injEq, Nat.one_mul]
  exact eq_comm

/-- **Position by position** through all chains. -/
theorem mem_positions_numbered_iff : ∀ {n : Nat} {pattern : GraphPattern}
    {p : PatternItem PropertyMap × Entity},
    p ∈ positions pattern (numbered f n pattern)
      ↔ ∃ i, pattern.flatten[i]? = some p.1 ∧ p.2 = f (n + i)
  | n, [], p => by
    refine ⟨fun h => absurd h List.not_mem_nil, ?_⟩
    rintro ⟨i, h, -⟩
    cases h
  | n, chain :: rest, p => by
    show p ∈ chain.zip ((List.range' n chain.length).map f)
        ++ positions rest (numbered f (n + chain.length) rest) ↔ _
    rw [List.mem_append, mem_zip_range'_iff, mem_positions_numbered_iff, List.flatten_cons]
    constructor
    · rintro (⟨i, hitem, hentity⟩ | ⟨i, hitem, hentity⟩)
      · have hlt : i < chain.length := (List.getElem?_eq_some_iff.1 hitem).1
        exact ⟨i, (List.getElem?_append_left hlt).trans hitem, hentity⟩
      · refine ⟨chain.length + i, ?_, by rw [hentity, Nat.add_assoc]⟩
        rw [List.getElem?_append_right (Nat.le_add_right _ _), Nat.add_sub_cancel_left]
        exact hitem
    · rintro ⟨i, hitem, hentity⟩
      -- the number says in which chain the position is
      by_cases hlt : i < chain.length
      · exact .inl ⟨i, (List.getElem?_append_left hlt).symm.trans hitem, hentity⟩
      · have hle : chain.length ≤ i := Nat.le_of_not_lt hlt
        refine .inr ⟨i - chain.length, (List.getElem?_append_right hle).symm.trans hitem, ?_⟩
        rw [hentity, Nat.add_assoc, Nat.add_sub_of_le hle]

/-- A chain of such an assignment stands where the chain of the pattern does. -/
theorem exists_of_mem_numbered : ∀ {n : Nat} {pattern : GraphPattern} {trail : List Entity},
    trail ∈ numbered f n pattern →
    ∃ front chain back, pattern = front ++ chain :: back
      ∧ trail = (List.range' (n + front.flatten.length) chain.length).map f
  | _, [], _, h => nomatch h
  | n, chain :: rest, trail, h => by
    rcases List.mem_cons.1 h with rfl | hrest
    · exact ⟨[], chain, rest, rfl, rfl⟩
    · obtain ⟨front, other, back, rfl, rfl⟩ := exists_of_mem_numbered hrest
      refine ⟨chain :: front, other, back, rfl, ?_⟩
      rw [List.flatten_cons, List.length_append, Nat.add_assoc]

/-- Consecutive entities make a connected chain if each may follow the one
before it. -/
theorem connected_map_range' : ∀ {length n : Nat} {previous : Option Entity},
    (0 < length → Follows previous (f n)) →
    (∀ i, i + 1 < length → Follows (some (f (n + i))) (f (n + (i + 1)))) →
    Connected previous ((List.range' n length).map f)
  | 0, _, _, _, _ => trivial
  | length + 1, n, previous, hfirst, hnext => by
    refine ⟨hfirst (Nat.succ_pos length), connected_map_range' ?_ ?_⟩
    · intro hpos
      exact hnext 0 (Nat.succ_lt_succ hpos)
    · intro i hi
      have hshift : ∀ k, n + 1 + k = n + (k + 1) := by omega
      rw [hshift, hshift]
      exact hnext (i + 1) (Nat.succ_lt_succ hi)

end PropertyGraph.Search
