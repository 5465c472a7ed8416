/-
  PropertyGraph.Proofs.Session.Step
  ─────────────────────────────────
  **STEPS OF A SESSION, AND RUNS OF THEM.**

  A session is used in three ways: a query is executed, a database is selected,
  a database is read again.  A run answers step by step.

  A run is SMOOTH if no save fails in it, there are ids of 64 bits left for what
  it makes, and of the floats that its queries bring in the text of each reads
  back.  Queries that fail for any other reason, and selections that fail, are
  steps like any other (`Smooth`).
-/
import PropertyGraph.Proofs.Session.Literals
import PropertyGraph.Proofs.Session.Plan

namespace PropertyGraph

open PropertyGraph.Query

/-! ## §1. Steps and answers. -/

/-- One use of a session. -/
inductive SessionStep where
  | execute (text : String)
  | select (name : String)
  | reload (name : String)

/-- What a step answers. -/
inductive SessionAnswer where
  | executed (result : Except ExecutionError (List Outcome))
  | selected (result : Except StorageError Unit)
  | reloaded (result : Except StorageError Unit)

/-- Is it the failure of a save? -/
def ExecutionError.isSaveFailure : ExecutionError → Bool
  | .storage _ => true
  | .query _ | .store _ | .creation _ => false

/-- Did something fail in its save? -/
def saveFailed {α : Type} : Except ExecutionError α → Bool
  | .error error => error.isSaveFailure
  | .ok _ => false

theorem saveFailed_map {α β : Type} (f : α → β) (result : Except ExecutionError α) :
    saveFailed (result.map f) = saveFailed result := by
  cases result <;> rfl

/-- Did the step fail in a save? -/
def SessionAnswer.saveFailed : SessionAnswer → Bool
  | .executed result => PropertyGraph.saveFailed result
  | .selected _ | .reloaded _ => false

/-- Every float that the step brings in reads back from its text. -/
def SessionStep.FloatsReadBack : SessionStep → Prop
  | .execute text => ∀ statements, parse text = .ok statements →
    ∀ statement ∈ statements, statement.Carries (PropertyMap.AllFloats Json.ReadsBack)
  | .select _ | .reload _ => True

instance : ∀ step : SessionStep, Decidable step.FloatsReadBack
  | .execute text =>
    match h : parse text with
    | .error _ => .isTrue fun _ hparse => nomatch h.symm.trans hparse
    | .ok statements =>
      decidable_of_iff (∀ statement ∈ statements,
          statement.Carries (PropertyMap.AllFloats Json.ReadsBack))
        ⟨fun hall _ hparse => Except.ok.inj (h.symm.trans hparse) ▸ hall,
          fun hall => hall statements h⟩
  | .select _ | .reload _ => .isTrue trivial

namespace Session

/-- The session after a step, and the answer. -/
def step (session : Session) : SessionStep → Session × SessionAnswer
  | .execute text =>
    let (session, result) := session.run text
    (session, .executed result)
  | .select name =>
    let (session, result) := session.select name
    (session, .selected result)
  | .reload name =>
    let (session, result) := session.reload name
    (session, .reloaded result)

/-! ## §2. Runs. -/

/-- The session after all steps, and the answers in order. -/
def runSteps (session : Session) : List SessionStep → Session × List SessionAnswer
  | [] => (session, [])
  | step :: rest =>
    let (session, answer) := session.step step
    let (session, answers) := session.runSteps rest
    (session, answer :: answers)

/-- There are ids left for what the statement makes, if it makes anything. -/
def HasRoom (session : Session) : GraphStatement → Prop
  | .create pattern => Creation.error? pattern = none → Creation.Room session.store pattern.flatten
  | .search _ _ | .project _ _ | .delete _ => True

instance (session : Session) : ∀ statement, Decidable (session.HasRoom statement)
  | .create _ => inferInstanceAs (Decidable (_ = none → Creation.Room _ _))
  | .search _ _ | .project _ _ | .delete _ => instDecidableTrue

/-- There are ids left for each statement that is executed, when its turn
comes. -/
def HasRoomAll (session : Session) : List GraphStatement → Prop
  | [] => True
  | statement :: rest => session.HasRoom statement
    ∧ match session.execute statement with
      | (after, .ok _) => after.HasRoomAll rest
      | (_, .error _) => True

instance decidableHasRoomAll : ∀ (session : Session) (statements : List GraphStatement),
    Decidable (session.HasRoomAll statements)
  | _, [] => instDecidableTrue
  | session, statement :: rest =>
    @instDecidableAnd _ _ _ (match session.execute statement with
      | (after, .ok _) => decidableHasRoomAll after rest
      | (_, .error _) => instDecidableTrue)

/-- There are ids left for the step. -/
def HasRoomStep (session : Session) : SessionStep → Prop
  | .execute text => ∀ statements, parse text = .ok statements → session.HasRoomAll statements
  | .select _ | .reload _ => True

instance (session : Session) : ∀ step, Decidable (session.HasRoomStep step)
  | .execute text =>
    match h : parse text with
    | .error _ => .isTrue fun _ hparse => nomatch h.symm.trans hparse
    | .ok statements =>
      decidable_of_iff (session.HasRoomAll statements)
        ⟨fun hroom _ hparse => Except.ok.inj (h.symm.trans hparse) ▸ hroom,
          fun hroom => hroom statements h⟩
  | .select _ | .reload _ => instDecidableTrue

/-- Nothing outside the program goes wrong in the step. -/
structure SmoothStep (session : Session) (step : SessionStep) : Prop where
  saves : (session.step step).2.saveFailed = false
  room : session.HasRoomStep step
  floats : step.FloatsReadBack

instance (session : Session) (step : SessionStep) : Decidable (session.SmoothStep step) :=
  decidable_of_iff ((session.step step).2.saveFailed = false ∧ session.HasRoomStep step
      ∧ step.FloatsReadBack)
    ⟨fun ⟨hsaves, hroom, hfloats⟩ => ⟨hsaves, hroom, hfloats⟩,
      fun h => ⟨h.saves, h.room, h.floats⟩⟩

/-- Nothing outside the program goes wrong in the run. -/
def Smooth (session : Session) : List SessionStep → Prop
  | [] => True
  | step :: rest => session.SmoothStep step ∧ (session.step step).1.Smooth rest

instance decidableSmooth : ∀ (session : Session) (steps : List SessionStep),
    Decidable (session.Smooth steps)
  | _, [] => .isTrue trivial
  | session, step :: rest =>
    @instDecidableAnd _ _ _ (decidableSmooth (session.step step).1 rest)

end Session

end PropertyGraph
