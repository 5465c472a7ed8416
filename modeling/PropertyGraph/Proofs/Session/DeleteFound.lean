/-
  PropertyGraph.Proofs.Session.DeleteFound
  ────────────────────────────────────────
  **WHAT WAS FOUND AND DELETED IS NOT FOUND AGAIN.**

  MATCH and then DELETE of one of its variables leaves a store in which the
  same MATCH has no solution.  Whatever solved the pattern afterwards would
  have solved it before, because deleting only takes entities away; so it was
  among the solutions that DELETE went through, and what it binds the
  variable to is gone.
-/
import PropertyGraph.Proofs.Search.Within
import PropertyGraph.Proofs.Session.Delete

namespace PropertyGraph

open PropertyGraph.Query

/-! ## §1. What deleting leaves. -/

namespace Store

variable {store after : Store} {named : EntityRef → Prop} [DecidablePred named]

theorem Without.within (h : store.Without after named) : after.Within store where
  node _ hnode := (List.mem_filter.1 (h.allNodes ▸ hnode)).1
  relationship _ hr := (List.mem_filter.1 (h.allRelationships ▸ hr)).1

/-- A named entity is not in the store any more. -/
theorem Without.not_inStore (h : store.Without after named) {entity : Entity}
    (hnamed : named entity.identity) : ¬ Search.InStore after entity := by
  intro hin
  cases entity with
  | node node =>
    have hmem := (Search.inStore_node_iff h.coherent.toIntegral).1 hin
    rw [h.allNodes, List.mem_filter, decide_eq_true_eq] at hmem
    exact hmem.2 hnamed
  | relationship r =>
    have hmem := (Search.inStore_relationship_iff h.coherent.toIntegral).1 hin
    rw [h.allRelationships, List.mem_filter, decide_eq_true_eq] at hmem
    exact hmem.2 (.inl hnamed)

end Store

/-! ## §2. Searching again. -/

namespace Search

/-- The pattern has in `small` only solutions that it has in `large`: the same
entities answer it there, and the solutions are part of those there. -/
structure FindsLess (small large : Store) (condition : Option (Condition Value))
    (chains : GraphPattern) : Prop where
  admissible : ∀ assignment, Admissible small condition chains assignment →
    Admissible large condition chains assignment
  solutions : (pattern small condition chains).Sublist (pattern large condition chains)

theorem findsLess_of_within {small large : Store} (hsmall : small.Coherent)
    (hlarge : large.Coherent) (h : small.Within large) (condition : Option (Condition Value))
    (chains : GraphPattern) : FindsLess small large condition chains where
  admissible _ ha := ha.within hsmall.toIntegral hlarge.toIntegral h
  solutions := pattern_sublist hsmall hlarge h condition chains

/-- **Nothing is left to find** once a variable of all solutions is deleted. -/
theorem pattern_deleteBound_eq_nil {store : Store} (hstore : store.Coherent)
    {condition : Option (Condition Value)} {chains : GraphPattern} {vars : List String}
    {var : String} (hmem : var ∈ vars) (hvar : var ∈ Pattern.vars chains) :
    pattern (Session.deleteBound store (pattern store condition chains) vars) condition chains
      = [] := by
  have hleft := Session.without_deleteBound hstore (pattern store condition chains) vars
  rw [List.eq_nil_iff_forall_not_mem]
  intro solution hsolution
  obtain ⟨a, ha, -⟩ := (mem_pattern_iff hleft.coherent).1 hsolution
  have hbefore := ha.within hleft.coherent.toIntegral hstore.toIntegral hleft.within
  obtain ⟨p, hp, hpvar⟩ := ha.exists_position hvar
  -- the same assignment was a solution before, so its entity has been named
  have hnamed : Session.Names (pattern store condition chains) vars p.2.identity :=
    ⟨bindingsOf chains a, (mem_pattern_iff hstore).2 ⟨a, hbefore, rfl⟩, var, hmem, p.2,
      hbefore.find?_bindingsOf.2 ⟨p, hp, hpvar, rfl⟩, rfl⟩
  exact hleft.not_inStore hnamed (ha.inStore p hp)

end Search

namespace Session

/-- **MATCH, DELETE of a variable of the pattern, and the same MATCH finds
nothing**, whether or not the store could be saved.  In general no entities
that are taken out of a store, and no store that has only entities of it,
have a solution that the store itself has not. -/
theorem search_delete_search (session : Session) (hstore : session.store.Reachable)
    (pattern : GraphPattern) (condition : Option (Condition Value)) :
    (∀ vars, ∀ var ∈ vars, var ∈ pattern.vars →
        ((((session.search pattern condition).1.delete vars).1).search pattern condition).2
          = .ok (.found []))
      ∧ (∀ gone : List EntityRef,
          Search.FindsLess (gone.foldl deleteEntity session.store) session.store condition pattern)
      ∧ ∀ small : Store, small.Coherent → small.Within session.store →
          Search.FindsLess small session.store condition pattern := by
  have hcoherent := hstore.coherent
  refine ⟨fun vars var hmem hvar => ?_, fun gone => ?_, fun small hsmall hwithin => ?_⟩
  · have hafter : ((session.search pattern condition).1.delete vars).1.store
        = deleteBound session.store (Search.pattern session.store condition pattern) vars :=
      store_delete _ vars
    show Except.ok (Outcome.found (Search.pattern
      ((session.search pattern condition).1.delete vars).1.store condition pattern)) = _
    rw [hafter, Search.pattern_deleteBound_eq_nil hcoherent hmem hvar]
  · have hleft := hcoherent.without_foldl_deleteEntity gone
    exact Search.findsLess_of_within hleft.coherent hcoherent hleft.within condition pattern
  · exact Search.findsLess_of_within hsmall hcoherent hwithin condition pattern

/-- A session in memory with two nodes that know each other. -/
def pairSession : Session :=
  (start .inMemory .empty).withStore (Store.empty.run Search.pairRun).2

/-- `MATCH (x:A)-[:KNOWS]->(y), (y)-[r]->(z)` has three solutions, and none
after `DELETE r`, although all nodes are still there. -/
theorem search_delete_search_pairSession :
    pairSession.store.Reachable
      ∧ (Search.pattern pairSession.store none Search.pairChains).length = 3
      ∧ (((pairSession.search Search.pairChains none).1.delete ["r"]).1.search
          Search.pairChains none).2 = .ok (.found [])
      ∧ Search.FindsLess (deleteEntity pairSession.store (.relationship 1)) pairSession.store none
          Search.pairChains := by
  have hreach : pairSession.store.Reachable :=
    ⟨Search.pairRun, by decide +kernel, rfl⟩
  obtain ⟨hnone, hless, -⟩ := search_delete_search pairSession hreach Search.pairChains none
  exact ⟨hreach, by decide +kernel, hnone ["r"] "r" List.mem_cons_self (by decide),
    hless [.relationship 1]⟩

end Session

end PropertyGraph
