/-
  PropertyGraph.Proofs.Session.Alone
  ──────────────────────────────────
  **A SESSION WORKS ON ITS CURRENT STORE ALONE.**

  Executing statements, changing the store, saving it and beginning anew are
  the work of a session between two selections.  Of the catalog, all of it
  changes the current store at most (`catalog_work`), and none of it depends on
  which databases are parked (`work_withParked`).
-/
import PropertyGraph.Proofs.Session.Effects
import PropertyGraph.Proofs.Store.Operation

namespace PropertyGraph

open PropertyGraph.Query

/-! ## §1. Work. -/

/-- What is done with a session between two selections. -/
inductive SessionWork where
  | run (text : String)
  | execute (statements : List GraphStatement)
  | change (operation : StoreOperation)
  | save
  /-- The last search is forgotten. -/
  | restart
  /-- The files are changed by others. -/
  | files (disk : Disk)

/-- What it answers. -/
inductive WorkAnswer where
  | executed (result : Except ExecutionError (List Outcome))
  | changed (answer : StoreAnswer)
  | saved (result : Except StorageError Unit)
  | done

namespace Session

variable {session : Session}

/-- The session after some work, and the answer. -/
def work (session : Session) : SessionWork → Session × WorkAnswer
  | .run text =>
    let (session, result) := session.run text
    (session, .executed result)
  | .execute statements =>
    let (session, result) := session.executeAll statements
    (session, .executed result)
  | .change operation =>
    let (answer, store) := session.store.apply operation
    (session.withStore store, .changed answer)
  | .save =>
    let (session, result) := session.save
    (session, .saved result)
  | .restart => ({ session with lastMatch := [] }, .done)
  | .files disk => ({ session with disk }, .done)

/-! ## §2. What work changes. -/

theorem catalog_create (session : Session) (pattern : GraphPattern) :
    (session.create pattern).1.catalog
      = { session.catalog with current := (session.create pattern).1.store } := by
  unfold create
  split
  next => rfl
  next =>
    split
    next => rfl
    next => rfl
    next => rw [store_saved, catalog_saved]; rfl

theorem catalog_execute (session : Session) (statement : GraphStatement) :
    (session.execute statement).1.catalog
      = { session.catalog with current := (session.execute statement).1.store } := by
  cases statement with
  | create pattern => exact catalog_create session pattern
  | search pattern condition => rfl
  | project vars distinct => rfl
  | delete vars => rw [execute, delete, store_saved, catalog_saved]; rfl

theorem catalog_executeAll (statements : List GraphStatement) : ∀ session : Session,
    (session.executeAll statements).1.catalog
      = { session.catalog with current := (session.executeAll statements).1.store } := by
  induction statements with
  | nil => intro session; rfl
  | cons statement rest ih =>
    intro session
    have hstep := catalog_execute session statement
    cases hexecute : session.execute statement with
    | mk after result =>
      rw [hexecute] at hstep
      cases result with
      | error error => rwa [executeAll_of_error hexecute]
      | ok outcome =>
        rw [executeAll_of_ok hexecute]
        dsimp only at hstep ⊢
        rw [ih after, hstep]

theorem catalog_run (session : Session) (text : String) :
    (session.run text).1.catalog
      = { session.catalog with current := (session.run text).1.store } := by
  unfold Session.run
  split
  next => rfl
  next statements _ => exact catalog_executeAll statements session

/-- **Of the catalog, work changes the current store at most.** -/
theorem catalog_work (session : Session) (work : SessionWork) :
    (session.work work).1.catalog
      = { session.catalog with current := (session.work work).1.store } := by
  cases work with
  | run text => exact catalog_run session text
  | execute statements => exact catalog_executeAll statements session
  | change operation => rfl
  | save => rfl
  | restart => rfl
  | files disk => rfl

/-! ## §3. What work depends on. -/

/-- The session with other databases parked. -/
def withParked (session : Session) (parked : SortedMap String Store) : Session :=
  { session with catalog := { session.catalog with parked } }

variable (parked : SortedMap String Store)

theorem saved_withParked (session : Session) (outcome : Outcome) :
    (session.withParked parked).saved outcome
      = ((session.saved outcome).1.withParked parked, (session.saved outcome).2) := by
  rw [saved_eq, saved_eq]
  rfl

theorem create_withParked (session : Session) (pattern : GraphPattern) :
    (session.withParked parked).create pattern
      = ((session.create pattern).1.withParked parked, (session.create pattern).2) := by
  have hstore : (session.withParked parked).store = session.store := rfl
  unfold create
  rw [hstore]
  split
  next => rfl
  next =>
    split
    next => rfl
    next => rfl
    next => exact saved_withParked parked (session.withStore _) _

theorem execute_withParked (session : Session) (statement : GraphStatement) :
    (session.withParked parked).execute statement
      = ((session.execute statement).1.withParked parked, (session.execute statement).2) := by
  cases statement with
  | create pattern => exact create_withParked parked session pattern
  | search pattern condition => rfl
  | project vars distinct => rfl
  | delete vars => exact saved_withParked parked (session.withStore _) _

theorem executeAll_withParked (statements : List GraphStatement) : ∀ session : Session,
    (session.withParked parked).executeAll statements
      = ((session.executeAll statements).1.withParked parked,
          (session.executeAll statements).2) := by
  induction statements with
  | nil => intro session; rfl
  | cons statement rest ih =>
    intro session
    have hstep := execute_withParked parked session statement
    cases hexecute : session.execute statement with
    | mk after result =>
      rw [hexecute] at hstep
      cases result with
      | error error => rw [executeAll_of_error hstep, executeAll_of_error hexecute]
      | ok outcome => rw [executeAll_of_ok hstep, executeAll_of_ok hexecute, ih after]

theorem run_withParked (session : Session) (text : String) :
    (session.withParked parked).run text
      = ((session.run text).1.withParked parked, (session.run text).2) := by
  unfold Session.run
  split
  next => rfl
  next statements _ => exact executeAll_withParked parked statements session

/-- **Work does not depend on parked databases.** -/
theorem work_withParked (session : Session) (work : SessionWork) :
    (session.withParked parked).work work
      = ((session.work work).1.withParked parked, (session.work work).2) := by
  cases work with
  | run text =>
    unfold Session.work
    dsimp only
    rw [run_withParked]
  | execute statements =>
    unfold Session.work
    dsimp only
    rw [executeAll_withParked]
  | change operation => rfl
  | save => rfl
  | restart => rfl
  | files disk => rfl

end Session

end PropertyGraph
