/-
  PropertyGraph.Proofs.Session.Twin
  ─────────────────────────────────
  **SESSIONS THAT CANNOT BE TOLD APART.**

  Two sessions are twins if they have the same files and the same last search,
  and twins wherever a database is selected.  So one of them may have in memory
  what the other one would have to read.

  Patterns have the same solutions in twin stores (`Search.pattern_congr`), the
  same is made in them (`Creation.Twin.elements`) and the same text is saved
  (`Storage.save_congr`).  So twin sessions answer alike, step by step and
  whatever happens, and stay twins (`Twin.runSteps`).
-/
import PropertyGraph.Proofs.Catalog.Residence
import PropertyGraph.Proofs.Session.Effects
import PropertyGraph.Proofs.Session.Step
import PropertyGraph.Proofs.Store.Twin

namespace PropertyGraph

open PropertyGraph.Query

/-! ## §1. Making and deleting. -/

namespace Creation

/-- The same has been made of twins. -/
structure Twin (left right : Creation) : Prop where
  store : left.store.Twin right.store
  vars : left.vars = right.vars
  summary : left.summary = right.summary

variable {left right : Creation}

theorem Twin.resolve (h : left.Twin right) (descriptor : NodePattern PropertyMap) :
    (left.resolve descriptor).1 = (right.resolve descriptor).1
      ∧ (left.resolve descriptor).2.Twin (right.resolve descriptor).2 := by
  have hbound : left.bound? descriptor.var = right.bound? descriptor.var := by
    rw [bound?, bound?, h.vars]
  unfold Creation.resolve
  rw [hbound]
  cases right.bound? descriptor.var with
  | some id => exact ⟨rfl, h⟩
  | none =>
    obtain ⟨hid, hstore⟩ :=
      h.store.createNode descriptor.label.toList descriptor.properties
    dsimp only
    refine ⟨hid, hstore, ?_, ?_⟩
    · rw [hid, h.vars]
    · rw [h.summary]

theorem Twin.connect (h : left.Twin right) (type : RelationshipType) (start end_ : NodeId)
    (properties : PropertyMap) :
    (∃ error, left.connect type start end_ properties = .error error
        ∧ right.connect type start end_ properties = .error error)
      ∨ ∃ leftAfter rightAfter, left.connect type start end_ properties = .ok leftAfter
          ∧ right.connect type start end_ properties = .ok rightAfter
          ∧ leftAfter.Twin rightAfter := by
  unfold Creation.connect
  rcases h.store.createRelationship type start end_ properties with
    ⟨error, hleft, hright⟩ | ⟨id, leftAfter, rightAfter, hleft, hright, hstore⟩
  · rw [hleft, hright]
    exact .inl ⟨error, rfl, rfl⟩
  · rw [hleft, hright]
    exact .inr ⟨_, _, rfl, rfl, hstore, h.vars, by rw [h.summary]⟩

/-- The rest of a chain, as far as it is made. -/
theorem Twin.steps : ∀ {element : PatternElement PropertyMap} {left right : Creation}
    {previous : Option NodeId}, left.Twin right →
    (left.steps previous element).2 = (right.steps previous element).2
      ∧ (left.steps previous element).1.Twin (right.steps previous element).1
  | [], _, _, _, h => ⟨rfl, h⟩
  | .node descriptor :: rest, left, right, previous, h => by
    obtain ⟨hid, hresolve⟩ := h.resolve descriptor
    unfold Creation.steps
    dsimp only
    rw [hid]
    exact hresolve.steps
  | .relationship descriptor :: .node next :: rest, left, right, previous, h => by
    obtain ⟨hid, hresolve⟩ := h.resolve next
    unfold Creation.steps
    cases previous with
    | none => exact ⟨rfl, h⟩
    | some start =>
      cases descriptor.type with
      | none => exact ⟨rfl, h⟩
      | some type =>
        dsimp only
        rw [hid]
        rcases hresolve.connect type start (right.resolve next).1 descriptor.properties with
          ⟨error, hleft, hright⟩ | ⟨leftAfter, rightAfter, hleft, hright, hdrawn⟩
        · rw [hleft, hright]
          exact ⟨rfl, hresolve⟩
        · rw [hleft, hright]
          exact hdrawn.steps
  | [.relationship _], _, _, _, h => ⟨rfl, h⟩
  | .relationship _ :: .relationship _ :: _, _, _, _, h => ⟨rfl, h⟩

/-- **The same is made of twins**, and stops at the same place if it stops. -/
theorem Twin.elements (pattern : GraphPattern) : ∀ {left right : Creation}, left.Twin right →
    (left.elements pattern).2 = (right.elements pattern).2
      ∧ (left.elements pattern).1.Twin (right.elements pattern).1 := by
  induction pattern with
  | nil => exact fun h => ⟨rfl, h⟩
  | cons element rest ih =>
    intro left right h
    have hsteps : (left.steps none element).2 = (right.steps none element).2
        ∧ (left.steps none element).1.Twin (right.steps none element).1 := h.steps
    unfold Creation.elements
    cases hleft : left.steps none element with
    | mk leftMade leftFault =>
      cases hright : right.steps none element with
      | mk rightMade rightFault =>
        rw [hleft, hright] at hsteps
        obtain ⟨rfl : leftFault = rightFault, hmade⟩ := hsteps
        cases leftFault with
        | none => exact ih hmade
        | some fault => exact ⟨rfl, hmade⟩

end Creation

namespace Store

variable {left right : Store}

theorem Twin.deleteEntity (h : left.Twin right) (entity : EntityRef) :
    (Session.deleteEntity left entity).Twin (Session.deleteEntity right entity) := by
  cases entity with
  | node id => exact h.deleteNode id
  | relationship id => exact h.deleteRelationship id

theorem Twin.foldl_deleteEntity (entities : List EntityRef) : ∀ {left right : Store},
    left.Twin right →
    (entities.foldl Session.deleteEntity left).Twin
      (entities.foldl Session.deleteEntity right) := by
  induction entities with
  | nil => intro left right h; exact h
  | cons entity rest ih => intro left right h; exact ih (h.deleteEntity entity)

end Store

/-! ## §2. Searching. -/

namespace Search

variable {left right : Store} (h : left.SameAs right)

include h

theorem nodeCandidates_congr (descriptor : NodePattern PropertyMap) (cursor : Cursor)
    (bindings : Bindings) :
    nodeCandidates left descriptor cursor bindings
      = nodeCandidates right descriptor cursor bindings := by
  unfold nodeCandidates
  simp only [h.node?, h.labelled, h.allNodes]

theorem relationshipCandidates_congr (cursor : Cursor) :
    relationshipCandidates left cursor = relationshipCandidates right cursor := by
  unfold relationshipCandidates
  simp only [h.leaving]

theorem search_congr (condition : Option (Condition Value)) (element : PatternElement PropertyMap) :
    ∀ cursor bindings,
      search left condition element cursor bindings
        = search right condition element cursor bindings := by
  induction element with
  | nil => intro cursor bindings; rfl
  | cons item rest ih =>
    intro cursor bindings
    cases item with
    | node descriptor => simp only [search, nodeCandidates_congr h, ih]
    | relationship descriptor => simp only [search, relationshipCandidates_congr h, ih]

/-- **The same solutions in the same order.** -/
theorem pattern_congr (condition : Option (Condition Value)) (pattern : GraphPattern) :
    Search.pattern left condition pattern = Search.pattern right condition pattern := by
  have helement : element left condition = element right condition := by
    funext chain
    unfold element
    rw [search_congr h]
  rw [Search.pattern, Search.pattern, helement]

end Search

/-! ## §3. Saving. -/

/-- **The same text in the same files.** -/
theorem Storage.save_congr {left right : Store} (h : left.SameAs right) (storage : Storage)
    (disk : Disk) (name : String) :
    storage.save disk name left = storage.save disk name right := by
  have hnodes : left.nodesEnvelope = right.nodesEnvelope := by
    rw [Store.nodesEnvelope, Store.nodesEnvelope, h.nextNodeId, h.allNodes]
  have hrelationships : left.relationshipsEnvelope = right.relationshipsEnvelope := by
    rw [Store.relationshipsEnvelope, Store.relationshipsEnvelope, h.nextRelationshipId,
      h.allRelationships]
  unfold Storage.save
  rw [hnodes, hrelationships]

/-! ## §4. Sessions. -/

/-- Two attempts to get hold of a store: twins, or one error. -/
def TwinChoice : Except StorageError Store → Except StorageError Store → Prop
  | .ok left, .ok right => left.Twin right
  | .error left, .error right => left = right
  | .ok _, .error _ | .error _, .ok _ => False

theorem TwinChoice.refl (choice : Except StorageError Store) : TwinChoice choice choice := by
  cases choice with
  | ok store => exact Store.Twin.refl store
  | error error => rfl

theorem TwinChoice.cases {left right : Except StorageError Store} (h : TwinChoice left right) :
    (∃ leftStore rightStore, left = .ok leftStore ∧ right = .ok rightStore
        ∧ leftStore.Twin rightStore)
      ∨ ∃ error, left = .error error ∧ right = .error error := by
  cases left with
  | ok leftStore =>
    cases right with
    | ok rightStore => exact .inl ⟨leftStore, rightStore, rfl, rfl, h⟩
    | error error => exact h.elim
  | error error =>
    cases right with
    | ok rightStore => exact h.elim
    | error other => exact .inr ⟨error, rfl, congrArg Except.error (Eq.symm h)⟩

namespace Session

/-- The same files, the same last search, and twins wherever a database is
selected.  One session may have a database in memory that the other would have
to read. -/
structure Twin (left right : Session) : Prop where
  disk : left.disk = right.disk
  lastMatch : left.lastMatch = right.lastMatch
  storage : left.catalog.storage = right.catalog.storage
  currentName : left.catalog.currentName = right.catalog.currentName
  selected : ∀ name, TwinChoice (left.catalog.selected left.disk name)
    (right.catalog.selected right.disk name)

/-- The same answer, and twins after it. -/
def TwinAfter {α : Type} (left right : Session × α) : Prop :=
  left.2 = right.2 ∧ left.1.Twin right.1

variable {left right : Session}

theorem Twin.store (h : left.Twin right) : left.store.Twin right.store := by
  have hcurrent := h.selected left.catalog.currentName
  rw [Catalog.selected_currentName, h.currentName, Catalog.selected_currentName] at hcurrent
  exact hcurrent

/-- **A database becomes current in both.** -/
theorem Twin.takes (h : left.Twin right) {name : String} {leftAfter rightAfter : Catalog}
    {leftStore rightStore : Store} (hleft : left.catalog.Takes leftAfter name leftStore)
    (hright : right.catalog.Takes rightAfter name rightStore)
    (hstore : leftStore.Twin rightStore) :
    Twin { left with catalog := leftAfter } { right with catalog := rightAfter } where
  disk := h.disk
  lastMatch := h.lastMatch
  storage := hleft.storage.trans (h.storage.trans hright.storage.symm)
  currentName := hleft.currentName.trans hright.currentName.symm
  selected other := by
    rw [hleft.selected, hright.selected]
    split
    · exact hstore
    · exact h.selected other

theorem Twin.withStore (h : left.Twin right) {leftStore rightStore : Store}
    (hstore : leftStore.Twin rightStore) :
    (left.withStore leftStore).Twin (right.withStore rightStore) := by
  have hright : right.catalog.Takes { right.catalog with current := rightStore }
      left.catalog.currentName rightStore := by
    rw [h.currentName]
    exact Catalog.takes_current right.catalog rightStore
  exact h.takes (Catalog.takes_current left.catalog leftStore) hright hstore

theorem Twin.withLastMatch (h : left.Twin right) (solutions : List Bindings) :
    Twin { left with lastMatch := solutions } { right with lastMatch := solutions } :=
  ⟨h.disk, rfl, h.storage, h.currentName, h.selected⟩

/-- **Both save**, with or without success. -/
theorem Twin.saved (h : left.Twin right) (outcome : Outcome) :
    TwinAfter (left.saved outcome) (right.saved outcome) := by
  have hsave : left.catalog.save left.disk = right.catalog.save right.disk := by
    unfold Catalog.save
    rw [h.storage, h.disk, h.currentName]
    cases right.catalog.storage with
    | none => rfl
    | some storage => exact Storage.save_congr h.store.sameAs storage _ _
  rw [saved_eq, saved_eq]
  refine ⟨by rw [hsave], ?_⟩
  exact
    { disk := congrArg Prod.fst hsave
      lastMatch := h.lastMatch
      storage := h.storage
      currentName := h.currentName
      selected := fun name => by
        rw [Catalog.selected_save, Catalog.selected_save]
        exact h.selected name }

/-! ## §5. Statements and queries. -/

theorem Twin.create (h : left.Twin right) (pattern : GraphPattern) :
    TwinAfter (left.create pattern) (right.create pattern) := by
  have hstart : (Creation.start left.store).Twin (Creation.start right.store) :=
    ⟨h.store, rfl, rfl⟩
  obtain ⟨hfault, hmade⟩ := hstart.elements pattern
  unfold Session.create
  cases Creation.error? pattern with
  | some error => exact ⟨rfl, h⟩
  | none =>
    cases hleft : (Creation.start left.store).elements pattern with
    | mk leftMade leftFault =>
      cases hright : (Creation.start right.store).elements pattern with
      | mk rightMade rightFault =>
        rw [hleft, hright] at hfault hmade
        obtain rfl : leftFault = rightFault := hfault
        have hafter := h.withStore hmade.store
        cases leftFault with
        | none =>
          dsimp only
          rw [hmade.summary]
          exact hafter.saved _
        | some fault => cases fault <;> exact ⟨rfl, hafter⟩

theorem Twin.delete (h : left.Twin right) (vars : List String) :
    TwinAfter (left.delete vars) (right.delete vars) := by
  have hafter : (deleteBound left.store left.lastMatch vars).Twin
      (deleteBound right.store right.lastMatch vars) := by
    rw [h.lastMatch]
    exact h.store.foldl_deleteEntity _
  unfold Session.delete
  dsimp only
  rw [h.store.sameAs.nodeCount, h.store.sameAs.relationshipCount, hafter.sameAs.nodeCount,
    hafter.sameAs.relationshipCount]
  exact (h.withStore hafter).saved _

/-- **Any statement.** -/
theorem Twin.execute (h : left.Twin right) (statement : GraphStatement) :
    TwinAfter (left.execute statement) (right.execute statement) := by
  cases statement with
  | create pattern => exact h.create pattern
  | search pattern condition =>
    have hsolutions := Search.pattern_congr h.store.sameAs condition pattern
    unfold Session.execute search
    dsimp only
    rw [hsolutions]
    exact ⟨rfl, h.withLastMatch _⟩
  | project vars distinct =>
    refine ⟨?_, h⟩
    show Except.ok (Outcome.returned (left.rows vars distinct))
      = .ok (.returned (right.rows vars distinct))
    rw [rows, rows, h.lastMatch]
  | delete vars => exact h.delete vars

theorem Twin.executeAll {statements : List GraphStatement} : ∀ {left right : Session},
    left.Twin right → TwinAfter (left.executeAll statements) (right.executeAll statements) := by
  induction statements with
  | nil => intro left right h; exact ⟨rfl, h⟩
  | cons statement rest ih =>
    intro left right h
    obtain ⟨hanswer, hafter⟩ := h.execute statement
    cases hleft : left.execute statement with
    | mk leftAfter answer =>
      cases hright : right.execute statement with
      | mk rightAfter answer' =>
        rw [hleft, hright] at hanswer hafter
        obtain rfl : answer = answer' := hanswer
        cases answer with
        | error error =>
          rw [executeAll_of_error hleft, executeAll_of_error hright]
          exact ⟨rfl, hafter⟩
        | ok outcome =>
          rw [executeAll_of_ok hleft, executeAll_of_ok hright]
          obtain ⟨hanswers, hlast⟩ := ih hafter
          exact ⟨congrArg (Except.map (outcome :: ·)) hanswers, hlast⟩

theorem Twin.run (h : left.Twin right) (text : String) :
    TwinAfter (left.run text) (right.run text) := by
  unfold Session.run
  split
  next => exact ⟨rfl, h⟩
  next => exact h.executeAll

/-! ## §6. Other databases. -/

theorem Twin.select (h : left.Twin right) (name : String) :
    TwinAfter (left.select name) (right.select name) := by
  unfold Session.select
  cases hvalid : validateName name with
  | error error =>
    rw [(Catalog.not_selected_of_invalid hvalid).1, (Catalog.not_selected_of_invalid hvalid).1]
    exact ⟨rfl, h⟩
  | ok =>
    rcases (h.selected name).cases with ⟨leftStore, rightStore, hleft, hright, hstore⟩ |
      ⟨error, hleft, hright⟩
    · obtain ⟨leftAfter, hleftAfter, hleftTakes⟩ := Catalog.takes_of_select hvalid hleft
      obtain ⟨rightAfter, hrightAfter, hrightTakes⟩ := Catalog.takes_of_select hvalid hright
      rw [hleftAfter, hrightAfter]
      exact ⟨rfl, h.takes hleftTakes hrightTakes hstore⟩
    · rw [Catalog.select_of_error hvalid hleft, Catalog.select_of_error hvalid hright]
      exact ⟨rfl, h⟩

theorem Twin.reload (h : left.Twin right) (name : String) :
    TwinAfter (left.reload name) (right.reload name) := by
  have hsame : Catalog.read left.catalog.storage left.disk name
      = Catalog.read right.catalog.storage right.disk name := by
    rw [h.storage, h.disk]
  unfold Session.reload
  cases hvalid : validateName name with
  | error error =>
    rw [(Catalog.not_selected_of_invalid hvalid).2, (Catalog.not_selected_of_invalid hvalid).2]
    exact ⟨rfl, h⟩
  | ok =>
    cases hread : Catalog.read right.catalog.storage right.disk name with
    | error error =>
      rw [Catalog.reload_of_error hvalid (hsame.trans hread),
        Catalog.reload_of_error hvalid hread]
      exact ⟨rfl, h⟩
    | ok store =>
      obtain ⟨leftAfter, hleftAfter, hleftTakes⟩ :=
        Catalog.takes_of_reload hvalid (hsame.trans hread)
      obtain ⟨rightAfter, hrightAfter, hrightTakes⟩ := Catalog.takes_of_reload hvalid hread
      rw [hleftAfter, hrightAfter]
      exact ⟨rfl, h.takes hleftTakes hrightTakes (.refl store)⟩

/-! ## §7. Steps and runs. -/

theorem Twin.step (h : left.Twin right) (step : SessionStep) :
    TwinAfter (left.step step) (right.step step) := by
  cases step with
  | execute text => exact ⟨congrArg SessionAnswer.executed (h.run text).1, (h.run text).2⟩
  | select name => exact ⟨congrArg SessionAnswer.selected (h.select name).1, (h.select name).2⟩
  | reload name => exact ⟨congrArg SessionAnswer.reloaded (h.reload name).1, (h.reload name).2⟩

/-- **Twins answer alike in every run**, also where saves fail. -/
theorem Twin.runSteps {steps : List SessionStep} : ∀ {left right : Session},
    left.Twin right → TwinAfter (left.runSteps steps) (right.runSteps steps) := by
  induction steps with
  | nil => intro left right h; exact ⟨rfl, h⟩
  | cons step rest ih =>
    intro left right h
    obtain ⟨hanswer, hafter⟩ := h.step step
    obtain ⟨hanswers, hlast⟩ := ih hafter
    refine ⟨?_, hlast⟩
    show (left.step step).2 :: _ = (right.step step).2 :: _
    rw [hanswer]
    exact congrArg ((right.step step).2 :: ·) hanswers

end Session

end PropertyGraph
