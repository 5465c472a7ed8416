/-
  PropertyGraph.Proofs.Session.Effects
  ────────────────────────────────────
  **WHAT A STATEMENT DOES TO THE CURRENT STORE.**

  Every statement works on the store through its operations and restores
  nothing: CREATE makes nodes and relationships with the properties of its
  pattern, even if the making stops on the way, and DELETE deletes.  So the
  store after a statement, or after several, has come of the store before by
  ordinary operations (`becomes_execute`, `becomes_executeAll`).
-/
import PropertyGraph.Proofs.Store.Contents
import PropertyGraph.Session.Basic

namespace PropertyGraph

open PropertyGraph.Query

namespace Query

/-- The properties of a position. -/
def PatternItem.properties {π : Type} : PatternItem π → π
  | .node descriptor => descriptor.properties
  | .relationship descriptor => descriptor.properties

/-- The properties that the statement brings into a store satisfy `p`. -/
def Statement.Carries (p : PropertyMap → Prop) : GraphStatement → Prop
  | .create pattern => ∀ element ∈ pattern, ∀ item ∈ element, p item.properties
  | .search _ _ | .project _ _ | .delete _ => True

instance {p : PropertyMap → Prop} [DecidablePred p] :
    ∀ statement : GraphStatement, Decidable (statement.Carries p)
  | .create pattern =>
    inferInstanceAs (Decidable (∀ element ∈ pattern, ∀ item ∈ element, p item.properties))
  | .search _ _ | .project _ _ | .delete _ => .isTrue trivial

end Query

variable {p : PropertyMap → Prop}

/-! ## §1. CREATE. -/

namespace Creation

theorem becomes_resolve (creation : Creation) {descriptor : NodePattern PropertyMap}
    (h : p descriptor.properties) :
    creation.store.Becomes p (creation.resolve descriptor).2.store := by
  unfold resolve
  split
  · exact .refl p creation.store
  · exact creation.store.becomes_apply (.createNode _ descriptor.properties) rfl h

theorem becomes_connect {creation after : Creation} {type : RelationshipType}
    {start end_ : NodeId} {properties : PropertyMap} (h : p properties)
    (hconnect : creation.connect type start end_ properties = .ok after) :
    creation.store.Becomes p after.store := by
  unfold connect at hconnect
  split at hconnect
  next => cases hconnect
  next id store hcreate =>
    obtain rfl := Except.ok.inj hconnect
    have hstep := creation.store.becomes_apply
      (.createRelationship type start end_ properties) rfl h
    rwa [Store.apply, hcreate] at hstep

/-- The rest of a chain, as far as it is made. -/
theorem becomes_steps : ∀ {element : PatternElement PropertyMap} {creation : Creation}
    {previous : Option NodeId}, (∀ item ∈ element, p item.properties) →
    creation.store.Becomes p (creation.steps previous element).1.store
  | [], creation, _, _ => .refl p creation.store
  | .node descriptor :: rest, creation, previous, h => by
    obtain ⟨hfirst, hrest⟩ := List.forall_mem_cons.1 h
    exact (becomes_resolve creation hfirst).trans (becomes_steps hrest)
  | .relationship descriptor :: .node next :: rest, creation, previous, h => by
    obtain ⟨hfirst, hothers⟩ := List.forall_mem_cons.1 h
    obtain ⟨hnext, hrest⟩ := List.forall_mem_cons.1 hothers
    have hresolve := becomes_resolve creation hnext
    unfold steps
    cases previous with
    | none => exact .refl p creation.store
    | some start =>
      cases descriptor.type with
      | none => exact .refl p creation.store
      | some type =>
        dsimp only
        cases hconnect : (creation.resolve next).2.connect type start (creation.resolve next).1
          descriptor.properties with
        | error error => exact hresolve
        | ok drawn =>
          exact (hresolve.trans (becomes_connect hfirst hconnect)).trans (becomes_steps hrest)
  | [.relationship _], creation, _, _ => .refl p creation.store
  | .relationship _ :: .relationship _ :: _, creation, _, _ => .refl p creation.store

theorem becomes_elements {pattern : GraphPattern} : ∀ {creation : Creation},
    (∀ element ∈ pattern, ∀ item ∈ element, p item.properties) →
    creation.store.Becomes p (creation.elements pattern).1.store := by
  induction pattern with
  | nil => intro creation _; exact .refl p creation.store
  | cons element rest ih =>
    intro creation h
    obtain ⟨hfirst, hrest⟩ := List.forall_mem_cons.1 h
    have hsteps : creation.store.Becomes p (creation.steps none element).1.store :=
      becomes_steps hfirst
    unfold elements
    split
    next made hmade =>
      rw [hmade] at hsteps
      exact hsteps.trans (ih hrest)
    next made fault hmade =>
      rw [hmade] at hsteps
      exact hsteps

end Creation

namespace Session

/-! ## §2. DELETE. -/

theorem becomes_deleteEntity (store : Store) (entity : EntityRef) :
    store.Becomes p (deleteEntity store entity) := by
  cases entity with
  | node id => exact store.becomes_apply (.deleteNode id) rfl trivial
  | relationship id => exact store.becomes_apply (.deleteRelationship id) rfl trivial

theorem becomes_foldl_deleteEntity (entities : List EntityRef) : ∀ store : Store,
    store.Becomes p (entities.foldl deleteEntity store) := by
  induction entities with
  | nil => intro store; exact .refl p store
  | cons entity rest ih =>
    intro store
    exact (becomes_deleteEntity store entity).trans (ih _)

/-! ## §3. Any statement. -/

/-- The session with other solutions in mind. -/
def recalling (session : Session) (solutions : List Bindings) : Session :=
  { session with lastMatch := solutions }

section

variable {session : Session}

@[simp] theorem store_withStore (store : Store) : (session.withStore store).store = store := rfl

theorem saved_eq (session : Session) (outcome : Outcome) :
    session.saved outcome
      = ({ session with disk := (session.catalog.save session.disk).1 },
          match (session.catalog.save session.disk).2 with
          | .ok () => .ok outcome
          | .error error => .error (.storage error)) := by
  unfold saved
  split <;> simp only [*]

/-- Saving leaves everything in memory as it is. -/
theorem catalog_saved (session : Session) (outcome : Outcome) :
    (session.saved outcome).1.catalog = session.catalog := by
  rw [saved_eq]

@[simp] theorem store_saved (session : Session) (outcome : Outcome) :
    (session.saved outcome).1.store = session.store := by
  rw [store, catalog_saved, store]

theorem becomes_create {pattern : GraphPattern}
    (h : ∀ element ∈ pattern, ∀ item ∈ element, p item.properties) :
    session.store.Becomes p (session.create pattern).1.store := by
  have helements : session.store.Becomes p
      ((Creation.start session.store).elements pattern).1.store :=
    Creation.becomes_elements h
  unfold create
  split
  next => exact .refl p session.store
  next =>
    split
    next hmade => rwa [hmade] at helements
    next hmade => rwa [hmade] at helements
    next hmade =>
      rw [hmade] at helements
      rwa [store_saved, store_withStore]

/-- **One statement.** -/
theorem becomes_execute {statement : GraphStatement} (h : statement.Carries p) :
    session.store.Becomes p (session.execute statement).1.store := by
  cases statement with
  | create pattern => exact becomes_create h
  | search pattern condition => exact .refl p session.store
  | project vars distinct => exact .refl p session.store
  | delete vars =>
    rw [execute, delete, store_saved, store_withStore]
    exact becomes_foldl_deleteEntity _ session.store

/-- The first statement fails: the query ends. -/
theorem executeAll_of_error {after : Session} {statement : GraphStatement}
    {error : ExecutionError} (h : session.execute statement = (after, .error error))
    (rest : List GraphStatement) :
    session.executeAll (statement :: rest) = (after, .error error) := by
  rw [executeAll, h]

/-- The first statement succeeds: the others follow. -/
theorem executeAll_of_ok {after : Session} {statement : GraphStatement} {outcome : Outcome}
    (h : session.execute statement = (after, .ok outcome)) (rest : List GraphStatement) :
    session.executeAll (statement :: rest)
      = ((after.executeAll rest).1, (after.executeAll rest).2.map (outcome :: ·)) := by
  rw [executeAll, h]
  dsimp only
  cases after.executeAll rest with
  | mk last results => cases results <;> rfl

/-- **Statements up to the first that fails.** -/
theorem becomes_executeAll {statements : List GraphStatement} : ∀ {session : Session},
    (∀ statement ∈ statements, statement.Carries p) →
    session.store.Becomes p (session.executeAll statements).1.store := by
  induction statements with
  | nil => intro session _; exact .refl p session.store
  | cons statement rest ih =>
    intro session h
    obtain ⟨hfirst, hrest⟩ := List.forall_mem_cons.1 h
    have hstep : session.store.Becomes p (session.execute statement).1.store :=
      becomes_execute hfirst
    cases hexecute : session.execute statement with
    | mk after result =>
      rw [hexecute] at hstep
      cases result with
      | error error => rwa [executeAll_of_error hexecute]
      | ok outcome =>
        rw [executeAll_of_ok hexecute]
        exact hstep.trans (ih hrest)

end

end Session

end PropertyGraph
