/-
  PropertyGraph.Proofs.Session.Unfailing
  ──────────────────────────────────────
  **WHAT A QUERY FROM A TEXT CAN FAIL OF.**

  CREATE checks its pattern, and while it makes it, every step can fail once
  more.  Of all this a text can bring about one thing only, a relationship
  without a type; and that is found before anything is made.

    * An alternating chain passes the check, or has a relationship without a
      type (`elementError?_of_alternating`).
    * What passes the check is made to the end in any store whatever, because
      the nodes that relationships are drawn between have been made before
      (`Standing`).

  Main result:
    * `run_of_parse` — a text that is read fails in memory exactly if it has
      a relationship to be created without a type, and then the statements
      before that one have been executed and nothing else has.
-/
import PropertyGraph.Proofs.Query.WellFormed
import PropertyGraph.Proofs.Session.Create

namespace PropertyGraph

open PropertyGraph.Query

/-! ## §1. What the check finds. -/

namespace Query

/-- Some relationship of the chain has no type. -/
def PatternElement.Untyped (element : PatternElement PropertyMap) : Prop :=
  ∃ descriptor, PatternItem.relationship descriptor ∈ element ∧ descriptor.type = none

/-- A CREATE with a relationship without type. -/
def Statement.Untyped : GraphStatement → Prop
  | .create pattern => ∃ element ∈ pattern, PatternElement.Untyped element
  | .search _ _ | .project _ _ | .delete _ => False

theorem untyped_step_iff {descriptor : NodePattern PropertyMap}
    {relationship : RelationshipPattern PropertyMap} {rest : PatternElement PropertyMap} :
    PatternElement.Untyped (.node descriptor :: .relationship relationship :: rest)
      ↔ relationship.type = none ∨ PatternElement.Untyped rest := by
  simp [PatternElement.Untyped, or_and_right, exists_or]

end Query

namespace Creation

theorem stepsError?_of_alternating {element : PatternElement PropertyMap}
    (h : Alternating element) :
    (PatternElement.Untyped element → stepsError? element = some .missingType)
      ∧ (¬ PatternElement.Untyped element → stepsError? element = none) := by
  induction h with
  | node descriptor =>
    refine ⟨?_, fun _ => rfl⟩
    rintro ⟨relationship, hmem, -⟩
    simp at hmem
  | @step descriptor relationship rest hrest ih =>
    rw [untyped_step_iff]
    -- a node stands behind the relationship
    obtain ⟨next, others, rfl⟩ : ∃ next others, rest = .node next :: others := by
      cases hrest with
      | node next => exact ⟨next, _, rfl⟩
      | step next => exact ⟨next, _, rfl⟩
    cases htype : relationship.type with
    | none => simp [stepsError?, htype]
    | some type => simpa [stepsError?, htype] using ih

/-- **An alternating chain lacks a type or nothing.** -/
theorem elementError?_of_alternating {element : PatternElement PropertyMap}
    (h : Alternating element) :
    (PatternElement.Untyped element → elementError? element = some .missingType)
      ∧ (¬ PatternElement.Untyped element → elementError? element = none) := by
  have hsteps := stepsError?_of_alternating h
  cases h with
  | node descriptor => exact hsteps
  | step descriptor relationship hrest => exact hsteps

theorem error?_of_untyped {pattern : GraphPattern} (h : ∀ element ∈ pattern, Alternating element)
    (huntyped : ∃ element ∈ pattern, PatternElement.Untyped element) :
    error? pattern = some .missingType := by
  induction pattern with
  | nil =>
    obtain ⟨element, hmem, -⟩ := huntyped
    exact absurd hmem List.not_mem_nil
  | cons element rest ih =>
    obtain ⟨hfirst, hrest⟩ := List.forall_mem_cons.1 h
    unfold error?
    rw [List.findSome?_cons]
    by_cases hlacks : PatternElement.Untyped element
    · rw [(elementError?_of_alternating hfirst).1 hlacks]
    · rw [(elementError?_of_alternating hfirst).2 hlacks]
      refine ih hrest ?_
      obtain ⟨other, hmem, hother⟩ := huntyped
      obtain rfl | hmem := List.mem_cons.1 hmem
      · exact absurd hother hlacks
      · exact ⟨other, hmem, hother⟩

theorem canBeMade_of_typed {element : PatternElement PropertyMap} (h : Alternating element)
    (htyped : ¬ PatternElement.Untyped element) : CanBeMade element :=
  elementError?_eq_none_iff.1 ((elementError?_of_alternating h).2 htyped)

end Creation

namespace Session

/-! ## §2. Statements. -/

section

variable {session : Session} {statement : GraphStatement}

theorem saved_of_inMemory (h : session.catalog.storage = none) (outcome : Outcome) :
    session.saved outcome = (session, .ok outcome) := by
  unfold saved Catalog.save
  rw [h]

/-- A statement with all its types succeeds, but for a save at its end. -/
theorem execute_of_typed (session : Session) (hwell : statement.WellFormed)
    (htyped : ¬ statement.Untyped) :
    ∃ after outcome, after.catalog.storage = session.catalog.storage
      ∧ (session.execute statement = (after, .ok outcome)
        ∨ session.execute statement = after.saved outcome) := by
  cases statement with
  | create pattern =>
    have hcan : ∀ element ∈ pattern, Creation.CanBeMade element := fun element hmem =>
      Creation.canBeMade_of_typed (hwell.alternating element hmem)
        (fun hlacks => htyped ⟨element, hmem, hlacks⟩)
    obtain ⟨after, outcome, hcreate⟩ := create_eq_saved session hcan
    exact ⟨session.withStore after, outcome, rfl, .inr hcreate⟩
  | search pattern condition =>
    exact ⟨session.recalling (Search.pattern session.store condition pattern), _, rfl, .inl rfl⟩
  | project vars distinct => exact ⟨session, _, rfl, .inl rfl⟩
  | delete vars =>
    exact ⟨session.withStore (deleteBound session.store session.lastMatch vars), _, rfl, .inr rfl⟩

/-- A statement that lacks a type is refused as a whole. -/
theorem execute_of_untyped (hwell : statement.WellFormed) (huntyped : statement.Untyped) :
    session.execute statement = (session, .error (.creation .missingType)) := by
  cases statement with
  | create pattern =>
    exact create_of_error (Creation.error?_of_untyped hwell.alternating huntyped)
  | search | project | delete => exact huntyped.elim

theorem storage_execute_typed (session : Session) (hwell : statement.WellFormed)
    (htyped : ¬ statement.Untyped) :
    (session.execute statement).1.catalog.storage = session.catalog.storage := by
  obtain ⟨after, outcome, hstorage, hok | hsaved⟩ :=
    execute_of_typed session hwell htyped
  · rw [hok, hstorage]
  · rw [hsaved, catalog_saved, hstorage]

theorem error_of_execute_typed {next : Session} {error : ExecutionError}
    (hwell : statement.WellFormed) (htyped : ¬ statement.Untyped)
    (h : session.execute statement = (next, .error error)) :
    ∃ failure, error = .storage failure := by
  obtain ⟨after, outcome, -, hok | hsaved⟩ := execute_of_typed session hwell htyped
  · rw [hok] at h
    cases h
  · rw [hsaved] at h
    exact error_of_saved (congrArg Prod.snd h)

theorem execute_inMemory (hmemory : session.catalog.storage = none)
    (hwell : statement.WellFormed) (htyped : ¬ statement.Untyped) :
    ∃ after outcome, after.catalog.storage = none
      ∧ session.execute statement = (after, .ok outcome) := by
  obtain ⟨after, outcome, hstorage, hexecute⟩ :=
    execute_of_typed session hwell htyped
  rw [hmemory] at hstorage
  rw [saved_of_inMemory hstorage, or_self] at hexecute
  exact ⟨after, outcome, hstorage, hexecute⟩

end

/-! ## §3. Queries. -/

/-- Statements that succeed, and then some more. -/
theorem executeAll_append {before rest : List GraphStatement} :
    ∀ {session after : Session} {outcomes : List Outcome},
      session.executeAll before = (after, .ok outcomes) →
      session.executeAll (before ++ rest)
        = ((after.executeAll rest).1, (after.executeAll rest).2.map (outcomes ++ ·)) := by
  induction before with
  | nil =>
    intro session after outcomes h
    obtain ⟨rfl, hok⟩ := Prod.mk.inj h
    obtain rfl := Except.ok.inj hok
    cases hrest : session.executeAll rest with
    | mk last results => cases results <;> simp [hrest, Except.map]
  | cons statement before ih =>
    intro session after outcomes h
    cases hexecute : session.execute statement with
    | mk next result =>
      cases result with
      | error error =>
        rw [executeAll_of_error hexecute] at h
        cases h
      | ok outcome =>
        rw [executeAll_of_ok hexecute] at h
        rw [List.cons_append, executeAll_of_ok hexecute]
        cases hothers : next.executeAll before with
        | mk middle results =>
          cases results with
          | error error =>
            rw [hothers] at h
            cases h
          | ok others =>
            rw [hothers] at h
            obtain ⟨rfl, hok⟩ := Prod.mk.inj h
            obtain rfl := Except.ok.inj hok
            rw [ih hothers]
            cases middle.executeAll rest with
            | mk last results => cases results <;> rfl

/-- **In memory, statements with all their types succeed.** -/
theorem executeAll_of_typed {statements : List GraphStatement} : ∀ {session : Session},
    session.catalog.storage = none →
    (∀ statement ∈ statements, statement.WellFormed) →
    (∀ statement ∈ statements, ¬ statement.Untyped) →
    ∃ after outcomes, session.executeAll statements = (after, .ok outcomes) := by
  induction statements with
  | nil => exact fun {session} _ _ _ => ⟨session, [], rfl⟩
  | cons statement rest ih =>
    intro session hmemory hwell htyped
    obtain ⟨hfirst, hrest⟩ := List.forall_mem_cons.1 hwell
    obtain ⟨hfirstTyped, hrestTyped⟩ := List.forall_mem_cons.1 htyped
    obtain ⟨next, outcome, hnext, hexecute⟩ := execute_inMemory hmemory hfirst hfirstTyped
    obtain ⟨after, outcomes, hothers⟩ := ih hnext hrest hrestTyped
    refine ⟨after, outcome :: outcomes, ?_⟩
    rw [executeAll_of_ok hexecute, hothers]
    rfl

/-- Besides for a missing type, a query fails of its storage only. -/
theorem error_of_executeAll {statements : List GraphStatement} {error : ExecutionError} :
    ∀ {session : Session}, (∀ statement ∈ statements, statement.WellFormed) →
      (session.executeAll statements).2 = .error error →
      (error = .creation .missingType ∧ ∃ statement ∈ statements, statement.Untyped)
        ∨ (session.catalog.storage ≠ none ∧ ∃ failure, error = .storage failure) := by
  induction statements with
  | nil =>
    intro session _ h
    cases h
  | cons statement rest ih =>
    intro session hwell h
    obtain ⟨hfirst, hrest⟩ := List.forall_mem_cons.1 hwell
    by_cases huntyped : statement.Untyped
    · rw [executeAll_of_error (execute_of_untyped hfirst huntyped)] at h
      exact .inl ⟨(Except.error.inj h).symm, statement, List.mem_cons_self, huntyped⟩
    cases hexecute : session.execute statement with
    | mk next result =>
      cases result with
      | error failure =>
        rw [executeAll_of_error hexecute] at h
        obtain rfl := Except.error.inj h
        refine .inr ⟨fun hmemory => ?_, error_of_execute_typed hfirst huntyped hexecute⟩
        obtain ⟨_, _, _, hok⟩ := execute_inMemory hmemory hfirst huntyped
        rw [hok] at hexecute
        cases hexecute
      | ok outcome =>
        have hstorage := storage_execute_typed session hfirst huntyped
        rw [hexecute] at hstorage
        rw [executeAll_of_ok hexecute] at h
        cases hothers : (next.executeAll rest).2 with
        | ok outcomes =>
          rw [hothers] at h
          cases h
        | error failure =>
          rw [hothers] at h
          obtain rfl := Except.error.inj h
          obtain ⟨heq, other, hmem, hother⟩ | hfailure := ih hrest hothers
          · exact .inl ⟨heq, other, List.mem_cons_of_mem _ hmem, hother⟩
          · exact .inr (hstorage ▸ hfailure)

theorem run_eq_executeAll {text : String} {statements : List GraphStatement}
    (h : parse text = .ok statements) (session : Session) :
    session.run text = session.executeAll statements := by
  unfold run
  rw [h]

/-- **A query from a text meets what its execution asks for.**  Its statements
are well-formed.  In memory, whatever the store and the last search, all of
them succeed unless a CREATE has a relationship without a type; then those
before the first such CREATE succeed, and the query fails for this reason and
has done nothing else.  With files, a save can fail besides; no query from a
text fails in any other way. -/
theorem run_of_parse {text : String} {statements : List GraphStatement}
    (hparse : parse text = .ok statements) :
    (statements ≠ [] ∧ ∀ statement ∈ statements, statement.WellFormed)
      ∧ (∀ session : Session, session.catalog.storage = none →
          ((∀ statement ∈ statements, ¬ statement.Untyped) →
            ∃ after outcomes, session.run text = (after, .ok outcomes))
          ∧ ∀ before statement rest, statements = before ++ statement :: rest →
              (∀ earlier ∈ before, ¬ earlier.Untyped) → statement.Untyped →
              ∃ after outcomes, session.executeAll before = (after, .ok outcomes)
                ∧ session.run text = (after, .error (.creation .missingType)))
      ∧ ∀ (session : Session) (error : ExecutionError), (session.run text).2 = .error error →
          (error = .creation .missingType ∧ ∃ statement ∈ statements, statement.Untyped)
            ∨ (session.catalog.storage ≠ none ∧ ∃ failure, error = .storage failure) := by
  obtain ⟨hne, hwell⟩ := wellFormed_of_parse hparse
  simp only [run_eq_executeAll hparse]
  refine ⟨⟨hne, hwell⟩, fun session hmemory => ⟨executeAll_of_typed hmemory hwell, ?_⟩, ?_⟩
  · rintro before statement rest rfl htyped huntyped
    obtain ⟨hbefore, hrest⟩ := List.forall_mem_append.1 hwell
    obtain ⟨after, outcomes, hall⟩ := executeAll_of_typed hmemory hbefore htyped
    refine ⟨after, outcomes, hall, ?_⟩
    rw [executeAll_append hall, executeAll_of_error
      (execute_of_untyped (hrest statement List.mem_cons_self) huntyped)]
    rfl
  · exact fun session error herror => error_of_executeAll hwell herror

/-- The second CREATE has a complete chain and one without a type. -/
def halfTypedText : String :=
  "MATCH (n:B) CREATE (a \x7bh: 7\x7d)-[:R]->(b:B) CREATE (c), (d)-[r]->(e) CREATE (f)"

/-- Its statements. -/
def halfTypedStatements : List GraphStatement :=
  [.search [[.node ⟨some "n", some "B", ∅⟩]] none,
    .create [[.node ⟨some "a", none, PropertyMap.ofList [("h", .int 7)]⟩,
      .relationship ⟨none, some "R", ∅⟩, .node ⟨some "b", some "B", ∅⟩]],
    .create [[.node ⟨some "c", none, ∅⟩],
      [.node ⟨some "d", none, ∅⟩, .relationship ⟨some "r", none, ∅⟩, .node ⟨some "e", none, ∅⟩]],
    .create [[.node ⟨some "f", none, ∅⟩]]]

theorem run_of_parse_halfTypedText :
    ∃ after outcomes,
      restoredSession.executeAll (halfTypedStatements.take 2) = (after, .ok outcomes)
        ∧ restoredSession.run halfTypedText = (after, .error (.creation .missingType))
        ∧ after.store.allNodes.map Node.id = [2, 3, 4, 5]
        ∧ after.store.allRelationships.map Relationship.id = [2] := by
  have hparse : parse halfTypedText = .ok halfTypedStatements := by rfl
  obtain ⟨after, outcomes, hbefore, hrun⟩ :=
    ((run_of_parse hparse).2.1 restoredSession rfl).2 (halfTypedStatements.take 2) _ _ rfl
      (by simp [halfTypedStatements, Statement.Untyped, PatternElement.Untyped])
      ⟨_, List.mem_cons_of_mem _ List.mem_cons_self, ⟨some "r", none, ∅⟩, by simp, rfl⟩
  refine ⟨after, outcomes, hbefore, hrun, ?_⟩
  have hafter : after = (restoredSession.executeAll (halfTypedStatements.take 2)).1 := by
    rw [hbefore]
  rw [hafter]
  decide +kernel

end Session

end PropertyGraph
