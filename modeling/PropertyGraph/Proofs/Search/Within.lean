/-
  PropertyGraph.Proofs.Search.Within
  ──────────────────────────────────
  **FEWER ENTITIES, FEWER SOLUTIONS.**

  A store is WITHIN another if all its entities are entities of the other,
  with the same labels and properties.  Whether an assignment answers a
  pattern is a matter of the entities in it, and of their being there; so
  what answers a pattern in the smaller store answers it in the larger one
  (`Admissible.within`).  Both searches list their solutions in one order,
  so the smaller one finds part of what the larger one finds
  (`pattern_sublist`).
-/
import Mathlib.Data.List.Sort
import PropertyGraph.Proofs.Search.Answers

namespace PropertyGraph

/-! ## §1. Part of a store. -/

namespace Store

/-- All entities of the one store are entities of the other, as they are. -/
structure Within (small large : Store) : Prop where
  node : ∀ node ∈ small.allNodes, node ∈ large.allNodes
  relationship : ∀ r ∈ small.allRelationships, r ∈ large.allRelationships

end Store

namespace Search

open PropertyGraph.Query

variable {store small large : Store} {condition : Option (Condition Value)}
  {chains : GraphPattern} {assignment : List (List Entity)}

/-- An entity of the store is one of its nodes or relationships. -/
theorem inStore_node_iff (h : store.Integral) {node : Node} :
    InStore store (.node node) ↔ node ∈ store.allNodes :=
  h.mem_allNodes_iff.symm

theorem inStore_relationship_iff (h : store.Integral) {r : Relationship} :
    InStore store (.relationship r) ↔ r ∈ store.allRelationships :=
  h.mem_allRelationships_iff.symm

theorem InStore.within (hsmall : small.Integral) (hlarge : large.Integral)
    (h : small.Within large) {entity : Entity} (hin : InStore small entity) :
    InStore large entity := by
  cases entity with
  | node node =>
    exact (inStore_node_iff hlarge).2 (h.node node ((inStore_node_iff hsmall).1 hin))
  | relationship r =>
    exact (inStore_relationship_iff hlarge).2
      (h.relationship r ((inStore_relationship_iff hsmall).1 hin))

/-- Of all conditions on an answer only one is about the store. -/
theorem Admissible.of_inStore (h : Admissible small condition chains assignment)
    (hin : ∀ p ∈ positions chains assignment, InStore large p.2) :
    Admissible large condition chains assignment :=
  { h with inStore := hin }

/-- **What answers a pattern in part of a store answers it in the whole.** -/
theorem Admissible.within (hsmall : small.Integral) (hlarge : large.Integral)
    (h : small.Within large) (ha : Admissible small condition chains assignment) :
    Admissible large condition chains assignment :=
  ha.of_inStore (fun p hp => (ha.inStore p hp).within hsmall hlarge h)

/-! ## §2. Part of the solutions. -/

/-- Of two lists in order of their ids, all of the one in the other, the one is
left of the other when some members are taken out. -/
theorem sublist_of_subset_of_ordered {left right : List (List (List Entity))}
    (hleft : left.Pairwise (fun a b => idsOf a < idsOf b))
    (hright : right.Pairwise (fun a b => idsOf a < idsOf b)) (h : left ⊆ right) :
    left.Sublist right := by
  have hasymm : ∀ {a b : List (List Entity)}, idsOf a < idsOf b → ¬ idsOf b < idsOf a :=
    fun hlt hgt => List.lt_irrefl _ (List.lt_trans hlt hgt)
  -- no ids come twice, so a list in their order has no repetitions
  have : Std.Antisymm (fun a b : List (List Entity) => idsOf a < idsOf b) :=
    ⟨fun _ _ hlt hgt => absurd hgt (hasymm hlt)⟩
  have hnodup : left.Nodup := by
    refine List.Pairwise.imp (fun {a b} hlt => ?_) hleft
    rintro rfl
    exact hasymm hlt hlt
  exact List.sublist_of_subperm_of_pairwise (List.subperm_of_subset hnodup h) hleft hright

/-- **Part of a store has part of the solutions**, in the same order. -/
theorem pattern_sublist (hsmall : small.Coherent) (hlarge : large.Coherent)
    (h : small.Within large) (condition : Option (Condition Value)) (chains : GraphPattern) :
    (pattern small condition chains).Sublist (pattern large condition chains) := by
  obtain ⟨fewer, hfewer⟩ := exists_answers hsmall condition chains
  obtain ⟨all, hall⟩ := exists_answers hlarge condition chains
  have hsubset : fewer ⊆ all := fun a ha =>
    (hall.mem_iff a).2
      (((hfewer.mem_iff a).1 ha).within hsmall.toIntegral hlarge.toIntegral h)
  rw [hfewer.solutions_eq, hall.solutions_eq]
  exact (sublist_of_subset_of_ordered hfewer.ordered hall.ordered hsubset).map _

/-! ## §3. Solutions and assignments. -/

/-- The solutions are those of the admissible assignments. -/
theorem mem_pattern_iff (hstore : store.Coherent) {solution : Bindings} :
    solution ∈ pattern store condition chains
      ↔ ∃ a, Admissible store condition chains a ∧ bindingsOf chains a = solution := by
  obtain ⟨assignments, h⟩ := exists_answers hstore condition chains
  rw [h.solutions_eq, List.mem_map]
  simp only [h.mem_iff]

/-- Every position of a pattern is assigned something. -/
theorem map_fst_positions : ∀ {chains : GraphPattern} {assignment : List (List Entity)},
    assignment.map List.length = chains.map List.length →
    (positions chains assignment).map (·.1) = chains.flatten
  | [], _, _ => rfl
  | chain :: rest, [], h => nomatch h
  | chain :: rest, trail :: more, h => by
    obtain ⟨hfirst, hrest⟩ := List.cons.inj h
    show ((chain.zip trail) ++ positions rest more).map (·.1) = chain ++ rest.flatten
    rw [List.map_append, map_fst_positions hrest]
    exact congrArg (· ++ rest.flatten) (List.map_fst_zip (Nat.le_of_eq hfirst.symm))

/-- A variable of the pattern stands at some position. -/
theorem Admissible.exists_position (h : Admissible store condition chains assignment)
    {var : String} (hvar : var ∈ Pattern.vars chains) :
    ∃ p ∈ positions chains assignment, p.1.var = some var := by
  obtain ⟨chain, hchain, hmem⟩ := List.mem_flatMap.1 hvar
  obtain ⟨item, hitem, heq⟩ := List.mem_filterMap.1 hmem
  have hflat : item ∈ (positions chains assignment).map (·.1) := by
    rw [map_fst_positions h.lengths]
    exact List.mem_flatten.2 ⟨chain, hchain, hitem⟩
  obtain ⟨p, hp, rfl⟩ := List.mem_map.1 hflat
  exact ⟨p, hp, heq⟩

end Search

end PropertyGraph
