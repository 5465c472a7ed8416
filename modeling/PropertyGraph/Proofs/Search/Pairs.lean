/-
  PropertyGraph.Proofs.Search.Pairs
  ─────────────────────────────────
  **A JOIN IS THE LIST OF ITS PAIRS.**

  Whatever two lists of solutions bind, their join is this: of all pairs,
  left side outermost, those that agree, each as one union.

      find?_union_eq          — what a union holds, for any two sides
      join_eq_map_union       — the join as a list of pairs
      join_eq_nestedLoopJoin  — with agreement said by entities

  Agreement looks at entities and not at snapshots, so the two sides of a
  pair may hold different snapshots of one entity.  The union then keeps
  those of the side that binds more variables (`join_prefers_larger_side`).
-/
import Mathlib.Data.List.ProdSigma
import PropertyGraph.Proofs.Search.Join

namespace PropertyGraph

/-! ## §1. Two sides of a union. -/

namespace Bindings

/-- Every variable bound in both means one entity. -/
def Compatible (left right : Bindings) : Prop :=
  ∀ var e f, left.find? var = some e → right.find? var = some f → e.identity = f.identity

instance (left right : Bindings) : Decidable (left.Compatible right) :=
  decidable_of_iff (left.agrees right = true) agrees_iff

/-- What two sides together hold of a variable.  Where both bind it, the side
with more variables counts, between equals the left one. -/
def held (left right : Bindings) (var : String) : Option Entity :=
  if right.size ≤ left.size then (left.find? var).or (right.find? var)
  else (right.find? var).or (left.find? var)

/-- A union, look-up by look-up, whether its sides agree or not. -/
theorem find?_union_eq (left right : Bindings) (var : String) :
    (left.union right).find? var = left.held right var := by
  unfold union held
  split
  · exact find?_extend left right var
  · exact find?_extend right left var

end Bindings

/-! ## §2. Pairs. -/

namespace Search

/-- **The join is the list of pairs that agree**, each as one union. -/
theorem join_eq_map_union (left right : List Bindings) :
    join left right
      = ((left ×ˢ right).filter (fun p => p.1.agrees p.2)).map (fun p => p.1.union p.2) := by
  rw [join_eq, nestedLoopJoin]
  induction left with
  | nil => rfl
  | cons l rest ih =>
    rw [List.flatMap_cons, ih, List.product_cons, List.filter_append, List.map_append]
    -- the pairs of one left solution are its partners
    have hpairs : joinOne l right
        = ((right.map (fun r => (l, r))).filter (fun p => p.1.agrees p.2)).map
            (fun p => p.1.union p.2) := by
      rw [List.filter_map, List.map_map]
      rfl
    rw [hpairs]

/-- Pairs of what is kept on either side are the kept pairs. -/
theorem product_filter {α β : Type} (p : α → Bool) (q : β → Bool) (left : List α)
    (right : List β) :
    (left.filter p) ×ˢ (right.filter q)
      = (left ×ˢ right).filter (fun pair => p pair.1 && q pair.2) := by
  induction left with
  | nil => rfl
  | cons a rest ih =>
    rw [List.product_cons, List.filter_append, List.filter_map, ← ih]
    by_cases ha : p a = true
    · rw [List.filter_cons_of_pos ha, List.product_cons]
      simp only [Function.comp_def, ha, Bool.true_and]
    · rw [List.filter_cons_of_neg ha]
      simp [Function.comp_def, ha]

/-- **The indexed join is the nested loop**, on any two lists.  It pairs each
left solution in turn with each right one whose variables mean the same
entities, and of each pair makes the bindings that both hold together. -/
theorem join_eq_nestedLoopJoin (left right : List Bindings) :
    join left right = nestedLoopJoin left right
      ∧ join left right
        = ((left ×ˢ right).filter (fun p => p.1.Compatible p.2)).map (fun p => p.1.union p.2)
      ∧ ∀ l r : Bindings, ∀ var, (l.union r).find? var = l.held r var := by
  refine ⟨join_eq left right, ?_, Bindings.find?_union_eq⟩
  rw [join_eq_map_union]
  congr 1
  refine List.filter_congr (fun p _ => ?_)
  show p.1.agrees p.2 = decide (p.1.Compatible p.2)
  rw [Bool.eq_iff_iff, decide_eq_true_iff]
  exact Bindings.agrees_iff

/-- One variable, bound to node 1 as it was without labels. -/
def earlier : Bindings := (∅ : Bindings).bind "a" (.node ⟨1, ∅, ∅⟩)

/-- Two variables, one of them bound to node 1 with a label. -/
def later : Bindings :=
  ((∅ : Bindings).bind "a" (.node ⟨1, SortedSet.ofList ["L"], ∅⟩)).bind "b" (.node ⟨2, ∅, ∅⟩)

/-- The labels of the node that a variable is bound to. -/
def labelsAt (solution : Bindings) (var : String) : List Label :=
  match solution.find? var with
  | some (.node n) => n.labels.toList
  | some (.relationship _) | none => []

/-- **The left snapshot does not always count.**  The pair agrees, but its union
holds the node as the right side does, which binds more variables; it is not the
left side with what the right one adds. -/
theorem join_prefers_larger_side :
    earlier.Compatible later
      ∧ (earlier.find? "a").isSome = true ∧ labelsAt earlier "a" = []
      ∧ (join [earlier] [later]).map (fun solution => labelsAt solution "a") = [["L"]]
      ∧ ¬ ∀ left right, join left right
        = ((left ×ˢ right).filter (fun p => p.1.Compatible p.2)).map
            (fun p => p.1.extend p.2) := by
  refine ⟨?_, ?_, ?_, ?_, fun h => ?_⟩
  · exact Bindings.agrees_iff.1 (by decide +kernel)
  · decide +kernel
  · decide +kernel
  · decide +kernel
  · have hlabels := congrArg (fun solutions => solutions.map (fun s => labelsAt s "a"))
      (h [earlier] [later])
    revert hlabels
    decide +kernel

end Search

end PropertyGraph
