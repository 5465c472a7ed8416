/-
  PropertyGraph.Proofs.Session.History
  ────────────────────────────────────
  **WHAT A RUN DOES, ONE THING AFTER THE OTHER.**

  A query is executed statement by statement, up to the first that fails.  The
  HISTORY of a run lists the statements that are executed, those that fail
  included, and between them the passages to other databases.  Doing one after
  the other leads to where the run leads (`runSteps_eq`).

  The solutions that RETURN and DELETE find are those of the last search of the
  history (`LastSearch`), whatever has been done since.
-/
import PropertyGraph.Proofs.Session.Distinct

namespace PropertyGraph

open PropertyGraph.Query

/-! ## §1. Actions. -/

/-- One thing that a session does. -/
inductive SessionAction where
  | execute (statement : GraphStatement)
  | select (name : String)
  | reload (name : String)

namespace SessionAction

/-- Is it a MATCH? -/
def isSearch : SessionAction → Bool
  | .execute statement => Session.isSearch statement
  | .select _ | .reload _ => false

end SessionAction

namespace Session

/-- The session after an action, whether it fails or not. -/
def act (session : Session) : SessionAction → Session
  | .execute statement => (session.execute statement).1
  | .select name => (session.select name).1
  | .reload name => (session.reload name).1

/-- The session after several actions. -/
def actAll (session : Session) (actions : List SessionAction) : Session :=
  actions.foldl act session

theorem actAll_append (session : Session) (first second : List SessionAction) :
    session.actAll (first ++ second) = (session.actAll first).actAll second :=
  List.foldl_append

/-- Each action satisfies `p` in the session before it. -/
def Each (p : Session → SessionAction → Prop) (session : Session) : List SessionAction → Prop
  | [] => True
  | action :: rest => p session action ∧ (session.act action).Each p rest

theorem each_append_iff {p : Session → SessionAction → Prop} {first second : List SessionAction} :
    ∀ {session : Session}, session.Each p (first ++ second)
      ↔ session.Each p first ∧ (session.actAll first).Each p second := by
  induction first with
  | nil => exact (iff_of_eq (true_and _)).symm
  | cons action rest ih =>
    intro session
    exact (and_congr_right fun _ => ih).trans and_assoc.symm

theorem Each.mono {p q : Session → SessionAction → Prop}
    (himp : ∀ session action, p session action → q session action)
    {actions : List SessionAction} : ∀ {session : Session}, session.Each p actions →
    session.Each q actions := by
  induction actions with
  | nil => exact fun _ => trivial
  | cons action rest ih => exact fun h => ⟨himp _ _ h.1, ih h.2⟩

/-- The statements that are executed before a query ends. -/
def executed (session : Session) : List GraphStatement → List SessionAction
  | [] => []
  | statement :: rest =>
    .execute statement ::
      match session.execute statement with
      | (_, .error _) => []
      | (after, .ok _) => after.executed rest

/-- What is done in one step. -/
def actions (session : Session) : SessionStep → List SessionAction
  | .execute text =>
    match parse text with
    | .error _ => []
    | .ok statements => session.executed statements
  | .select name => [.select name]
  | .reload name => [.reload name]

/-- What is done in a run. -/
def history (session : Session) : List SessionStep → List SessionAction
  | [] => []
  | step :: rest => session.actions step ++ (session.step step).1.history rest

theorem executeAll_eq_actAll (statements : List GraphStatement) : ∀ session : Session,
    (session.executeAll statements).1 = session.actAll (session.executed statements) := by
  induction statements with
  | nil => intro session; rfl
  | cons statement rest ih =>
    intro session
    unfold executed
    show _ = actAll (session.execute statement).1 _
    cases hexecute : session.execute statement with
    | mk after result =>
      cases result with
      | error error =>
        rw [executeAll_of_error hexecute]
        rfl
      | ok outcome =>
        rw [executeAll_of_ok hexecute]
        exact ih after

theorem step_eq_actAll (session : Session) (step : SessionStep) :
    (session.step step).1 = session.actAll (session.actions step) := by
  cases step with
  | execute text =>
    unfold actions
    show (session.run text).1 = session.actAll (match parse text with
      | .error _ => []
      | .ok statements => session.executed statements)
    unfold run
    cases parse text with
    | error error => rfl
    | ok statements => exact executeAll_eq_actAll statements session
  | select name => rfl
  | reload name => rfl

/-- **A run does what its history says.** -/
theorem runSteps_eq (steps : List SessionStep) : ∀ session : Session,
    (session.runSteps steps).1 = session.actAll (session.history steps) := by
  induction steps with
  | nil => intro session; rfl
  | cons step rest ih =>
    intro session
    unfold history
    rw [actAll_append, ← step_eq_actAll]
    exact ih _

/-! ## §2. The last search. -/

/-- Only a search replaces the solutions of the last one. -/
theorem lastMatch_act (session : Session) {action : SessionAction}
    (h : action.isSearch = false) : (session.act action).lastMatch = session.lastMatch := by
  cases action with
  | execute statement => exact lastMatch_execute session h
  | select name =>
    show (session.select name).1.lastMatch = _
    unfold select
    split <;> rfl
  | reload name =>
    show (session.reload name).1.lastMatch = _
    unfold reload
    split <;> rfl

/-- `found` is the session right after the last search among some actions, and
`between` is what has been done since. -/
def LastSearch (session : Session) (actions : List SessionAction) (found : Session)
    (between : List SessionAction) : Prop :=
  ∃ earlier pattern condition,
    actions = earlier ++ .execute (.search pattern condition) :: between
      ∧ (∀ action ∈ between, action.isSearch = false)
      ∧ found = (session.actAll earlier).act (.execute (.search pattern condition))

theorem LastSearch.actAll_eq {session found : Session} {actions between : List SessionAction}
    (h : session.LastSearch actions found between) :
    session.actAll actions = found.actAll between := by
  obtain ⟨earlier, pattern, condition, rfl, -, rfl⟩ := h
  exact actAll_append session earlier _

theorem lastMatch_actAll {actions : List SessionAction} : ∀ {session : Session},
    (∀ action ∈ actions, action.isSearch = false) →
    (session.actAll actions).lastMatch = session.lastMatch := by
  induction actions with
  | nil => exact fun _ => rfl
  | cons action rest ih =>
    intro session h
    obtain ⟨hfirst, hrest⟩ := List.forall_mem_cons.1 h
    exact (ih hrest).trans (lastMatch_act session hfirst)

theorem LastSearch.lastMatch_eq {session found : Session} {actions between : List SessionAction}
    (h : session.LastSearch actions found between) :
    (session.actAll actions).lastMatch = found.lastMatch := by
  rw [h.actAll_eq]
  obtain ⟨earlier, pattern, condition, -, hbetween, -⟩ := h
  exact lastMatch_actAll hbetween

/-- **There has been a last search, or none at all.** -/
theorem lastSearch_cases (actions : List SessionAction) : ∀ session : Session,
    (∀ action ∈ actions, action.isSearch = false)
      ∨ ∃ found between, session.LastSearch actions found between := by
  induction actions with
  | nil => exact fun _ => .inl (fun _ hmem => absurd hmem List.not_mem_nil)
  | cons action rest ih =>
    intro session
    rcases ih (session.act action) with hnone | hlater
    · cases action with
      | execute statement =>
        cases statement with
        | search pattern condition =>
          -- nothing after this is a search
          exact .inr ⟨_, rest, [], pattern, condition, rfl, hnone, rfl⟩
        | create | project | delete => exact .inl (List.forall_mem_cons.2 ⟨rfl, hnone⟩)
      | select | reload => exact .inl (List.forall_mem_cons.2 ⟨rfl, hnone⟩)
    · obtain ⟨found, between, earlier, pattern, condition, rfl, hbetween, rfl⟩ := hlater
      exact .inr ⟨_, between, action :: earlier, pattern, condition, rfl, hbetween, rfl⟩

end Session

end PropertyGraph
