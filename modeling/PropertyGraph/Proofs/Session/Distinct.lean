/-
  PropertyGraph.Proofs.Session.Distinct
  ─────────────────────────────────────
  **RETURN DISTINCT GOES BY THE ENTITIES.**

  Of the solutions of the last search, RETURN DISTINCT shows those before
  which no other one binds the variables asked for to the same entities
  (`distinct_of_search`).  Labels and properties do not matter: entities
  that are alike stay apart, and one entity is shown once.

  It does so however many statements have been executed since the search.
  They do not touch the solutions, which hold the entities as they were when
  they were found, so all snapshots of one entity are the same.
-/
import PropertyGraph.Proofs.Files.Loaded
import PropertyGraph.Proofs.Session.Delete
import PropertyGraph.Proofs.Session.Rows

namespace PropertyGraph.Session

open PropertyGraph.Query

/-! ## §1. Statements after a search. -/

/-- The session after several statements, whether they fail or not. -/
def after (session : Session) (statements : List GraphStatement) : Session :=
  statements.foldl (fun session statement => (session.execute statement).1) session

/-- Is the statement a MATCH? -/
def isSearch : GraphStatement → Bool
  | .search _ _ => true
  | _ => false

theorem lastMatch_create (session : Session) (pattern : GraphPattern) :
    (session.create pattern).1.lastMatch = session.lastMatch := by
  unfold create
  split
  · rfl
  · split
    · rfl
    · rfl
    · exact lastMatch_saved _ _

/-- Only a search replaces the solutions of the last one. -/
theorem lastMatch_execute (session : Session) {statement : GraphStatement}
    (h : isSearch statement = false) :
    (session.execute statement).1.lastMatch = session.lastMatch := by
  cases statement with
  | create pattern => exact lastMatch_create session pattern
  | search pattern condition => cases h
  | project vars distinct => rfl
  | delete vars => exact lastMatch_delete session vars

theorem lastMatch_after {statements : List GraphStatement} : ∀ (session : Session),
    (∀ statement ∈ statements, isSearch statement = false) →
    (session.after statements).lastMatch = session.lastMatch := by
  induction statements with
  | nil => exact fun _ _ => rfl
  | cons statement rest ih =>
    intro session h
    obtain ⟨hfirst, hrest⟩ := List.forall_mem_cons.1 h
    exact (ih _ hrest).trans (lastMatch_execute session hfirst)

/-! ## §2. Rows. -/

/-- **RETURN and RETURN DISTINCT after a search.**  Two solutions give the same
row if and only if they bind the variables to the same entities.  RETURN shows
the rows of all solutions; RETURN DISTINCT those of the solutions before which
there is none with the same entities. -/
theorem distinct_of_search {session : Session} (hstore : session.store.Obtainable)
    (pattern : GraphPattern) (condition : Option (Condition Value))
    {between : List GraphStatement} (hbetween : ∀ statement ∈ between, isSearch statement = false)
    (vars : List String) :
    ∃ solutions last, (session.search pattern condition).2 = .ok (.found solutions)
      ∧ session.after (.search pattern condition :: between) = last
      ∧ (∀ left ∈ solutions, ∀ right ∈ solutions,
          Row.ofBindings vars left = Row.ofBindings vars right ↔ SameEntities vars left right)
      ∧ last.execute (.project vars false)
        = (last, .ok (.returned (solutions.map (Row.ofBindings vars))))
      ∧ last.execute (.project vars true)
        = (last, .ok (.returned
            ((firsts (SameEntities vars) solutions).map (Row.ofBindings vars)))) := by
  have hbound : ∀ solution ∈ Search.pattern session.store condition pattern,
      Search.BoundInStore session.store solution :=
    fun solution => Search.boundInStore_of_mem_pattern hstore.integral
  have hlast : (session.after (.search pattern condition :: between)).lastMatch
      = Search.pattern session.store condition pattern :=
    lastMatch_after (session.search pattern condition).1 hbetween
  refine ⟨_, _, rfl, rfl, ?_, ?_, ?_⟩
  · exact fun left hleft right hright =>
      ofBindings_eq_iff (hbound left hleft) (hbound right hright)
  · show (_, Except.ok (Outcome.returned (List.map _ _))) = _
    rw [hlast]
  · have hfirsts : firsts (fun a b : Row => a.key = b.key)
        ((Search.pattern session.store condition pattern).map (Row.ofBindings vars))
        = (firsts (SameEntities vars) (Search.pattern session.store condition pattern)).map
          (Row.ofBindings vars) :=
      firsts_map (fun left hleft right hright =>
        key_eq_iff (hbound left hleft) (hbound right hright))
    show (_, Except.ok (Outcome.returned (Row.distinct (List.map _ _)))) = _
    rw [hlast, Row.distinct_eq_firsts, hfirsts]

/-- Two nodes that are alike, joined both ways by relationships that are alike. -/
def twinSession : Session :=
  ⟨{ Catalog.inMemory with
    current := (Store.empty.run [.createNode ["A"] ∅, .createNode ["A"] ∅,
      .createRelationship "R" 1 2 ∅, .createRelationship "R" 2 1 ∅]).2 }, .empty, []⟩

/-- `(a)-[r]->(), (c:A)`: each relationship beside each node. -/
def twinPattern : GraphPattern :=
  [[.node ⟨some "a", none, ∅⟩, .relationship ⟨some "r", none, ∅⟩, .node ⟨none, none, ∅⟩],
    [.node ⟨some "c", some "A", ∅⟩]]

/-- One node is deleted with its relationships, another made. -/
def twinStatements : List GraphStatement :=
  [.delete ["c"], .create [[.node ⟨some "a", some "A", ∅⟩]], .project ["a"] true]

/-- Four solutions start at two nodes, and both of these are shown, although
they are alike and neither is there any more. -/
theorem distinct_of_search_twinSession :
    twinSession.store.Obtainable
      ∧ (∀ statement ∈ twinStatements, isSearch statement = false)
      ∧ ∃ solutions last, (twinSession.search twinPattern none).2 = .ok (.found solutions)
        ∧ twinSession.after (.search twinPattern none :: twinStatements) = last
        ∧ last.store.hasNode 1 = false ∧ last.store.hasNode 2 = false
        ∧ last.execute (.project ["a"] false)
          = (last, .ok (.returned (solutions.map (Row.ofBindings ["a"]))))
        ∧ solutions.map (fun solution => (solution.find? "a").map Entity.identity)
          = [some (.node 1), some (.node 1), some (.node 2), some (.node 2)]
        ∧ ∃ kept : List Bindings, last.execute (.project ["a"] true)
            = (last, .ok (.returned (kept.map (Row.ofBindings ["a"]))))
          ∧ kept.map (fun solution => (solution.find? "a").map Entity.identity)
            = [some (.node 1), some (.node 2)] := by
  have hstore : twinSession.store.Obtainable :=
    Store.Obtainable.empty.run _
  have hbetween : ∀ statement ∈ twinStatements, isSearch statement = false := by decide
  obtain ⟨solutions, last, hfound, hlast, -, hplain, hdistinct⟩ :=
    distinct_of_search hstore twinPattern none hbetween ["a"]
  obtain rfl : Search.pattern twinSession.store none twinPattern = solutions :=
    Outcome.found.inj (Except.ok.inj hfound)
  refine ⟨hstore, hbetween, _, last, hfound, hlast, ?_, ?_, hplain, ?_, _, hdistinct, ?_⟩
  · rw [← hlast]
    decide +kernel
  · rw [← hlast]
    decide +kernel
  · decide +kernel
  · decide +kernel

end PropertyGraph.Session
