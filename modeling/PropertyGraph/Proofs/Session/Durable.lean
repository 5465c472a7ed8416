/-
  PropertyGraph.Proofs.Session.Durable
  ────────────────────────────────────
  **WHAT IS IN MEMORY IS IN THE FILES.**

  CREATE checks its pattern before it makes anything and DELETE cannot fail, so
  a statement that changes the current store saves it before it answers.
  Between statements every resident database is therefore what would be loaded
  under its name.  `Durable` says so of a session, together with what keeps it
  true:

      resident  — each resident database has files that load as the same graph
      stored    — whatever loads is sound: coherent, with counters past its ids
                  and properties that files give back unchanged
      loadable  — what could be loaded at the beginning still can
      directories, storage_eq  — the place of the files

  A statement keeps it (`Durable.execute`), a step (`Durable.step`) and a run
  (`Durable.runSteps`).
-/
import PropertyGraph.Proofs.Catalog.Residence
import PropertyGraph.Proofs.Files.Reopen
import PropertyGraph.Proofs.Session.Create
import PropertyGraph.Proofs.Session.Step

namespace PropertyGraph

open PropertyGraph.Query PropertyGraph.Creation

/-! ## §1. Sound stores. -/

namespace Store

/-- A coherent store whose ids have lasted so far, and whose properties files
give back unchanged. -/
structure Sound (store : Store) : Prop extends Coherent store where
  idsFit : store.IdsFit
  holds : store.Holds PropertyMap.ComesBack

variable {store after : Store}

theorem sound_empty : Sound empty where
  toCoherent := coherent_empty
  idsFit := idsFit_empty
  holds := holds_empty

theorem SameAs.idsFit (h : after.SameAs store) (hids : store.IdsFit) : after.IdsFit where
  nextNodeId_pos := h.nextNodeId ▸ hids.nextNodeId_pos
  nextRelationshipId_pos := h.nextRelationshipId ▸ hids.nextRelationshipId_pos
  nextNodeId_lt := h.nextNodeId ▸ hids.nextNodeId_lt
  nextRelationshipId_lt := h.nextRelationshipId ▸ hids.nextRelationshipId_lt
  node_lt node hnode := h.nextNodeId ▸ hids.node_lt node (h.allNodes ▸ hnode)
  relationship_lt r hr :=
    h.nextRelationshipId ▸ hids.relationship_lt r (h.allRelationships ▸ hr)

theorem Sound.of_sameAs (h : store.Sound) (hafter : Coherent after) (hsame : after.SameAs store) :
    after.Sound where
  toCoherent := hafter
  idsFit := hsame.idsFit h.idsFit
  holds :=
    { node := fun hfound => h.holds.node (hsame.node? _ ▸ hfound)
      relationship := fun hfound => h.holds.relationship (hsame.relationship? _ ▸ hfound) }

/-- **A sound store is loaded as the same graph**, and is sound again. -/
theorem Sound.reloaded (h : store.Sound) :
    store.reloaded.Sound ∧ store.reloaded.plain = store.plain := by
  have hpreserved := preserved_of_holds h.idsFit h.holds
  obtain ⟨hcoherent, hnodes, hrelationships, hnextNode, hnextRelationship⟩ :=
    reloaded_eq h.toIntegral h.idsFit
  rw [hpreserved.nodes_eq] at hnodes
  rw [hpreserved.relationships_eq] at hrelationships
  have hplain : store.reloaded.plain = store.plain := by
    rw [plain, plain, hnodes, hrelationships, hnextNode, hnextRelationship]
  exact ⟨h.of_sameAs hcoherent (hcoherent.sameAs h.toCoherent hplain), hplain⟩

/-- An ordinary operation keeps a store sound while the ids last. -/
theorem Sound.apply (h : store.Sound) {operation : StoreOperation}
    (hordinary : operation.isRestoring = false) (hfits : store.Fits operation)
    (hcarries : operation.Carries PropertyMap.ComesBack) : (store.apply operation).2.Sound where
  toCoherent := h.toCoherent.apply ((h.bounded h.idsFit).untangled hordinary)
  idsFit := ((h.ahead h.idsFit).apply hfits).idsFit
  holds := h.holds.apply hcarries

theorem Sound.foldl_deleteEntity (entities : List EntityRef) : ∀ {store : Store}, store.Sound →
    (entities.foldl Session.deleteEntity store).Sound := by
  induction entities with
  | nil => exact fun h => h
  | cons entity rest ih =>
    intro store h
    -- a deletion asks for no id
    cases entity with
    | node id =>
      have hfits : store.Fits (.deleteNode id) := trivial
      exact ih (h.apply rfl hfits trivial)
    | relationship id =>
      have hfits : store.Fits (.deleteRelationship id) := trivial
      exact ih (h.apply rfl hfits trivial)

/-- The counters after a pattern has been made in a store with room for it. -/
theorem Extends.idsFit {pattern : GraphPattern}
    (h : store.Extends after (newNodes store pattern) (newRelationships store pattern))
    (hroom : Room store pattern.flatten) (hids : store.IdsFit) (hafter : after.Bounded) :
    after.IdsFit := by
  have hnode := h.nextNodeId
  have hrelationship := h.nextRelationshipId
  rw [newNodes, length_plannedNodes] at hnode
  rw [newRelationships, length_plannedRelationships] at hrelationship
  refine hafter.idsFit ?_ ?_ (hnode ▸ hroom.nodes) (hrelationship ▸ hroom.relationships)
  · exact hnode ▸ Nat.lt_of_lt_of_le hids.nextNodeId_pos (Nat.le_add_right _ _)
  · exact hrelationship ▸ Nat.lt_of_lt_of_le hids.nextRelationshipId_pos (Nat.le_add_right _ _)

end Store

/-! ## §2. The invariant. -/

variable {opened : Disk} {storage : Storage} {session after : Session}

/-- Every resident database is what its files load as. -/
structure Durable (opened : Disk) (storage : Storage) (session : Session) : Prop where
  storage_eq : session.catalog.storage = some storage
  directories : opened.KeepsDirectories session.disk
  loadable : ∀ {name store}, storage.load opened name = .ok store →
    ∃ loaded, storage.load session.disk name = .ok loaded
  stored : ∀ {name loaded}, storage.load session.disk name = .ok loaded → loaded.Sound
  resident : ∀ {name store}, session.catalog.resident? name = some store →
    store.Sound ∧ ∃ loaded, storage.load session.disk name = .ok loaded
      ∧ loaded.plain = store.plain

theorem Durable.current (h : Durable opened storage session) : session.store.Sound :=
  (h.resident Catalog.resident?_currentName).1

/-- The invariant is about databases and files only. -/
theorem Durable.congr (h : Durable opened storage session)
    (hcatalog : after.catalog = session.catalog) (hdisk : after.disk = session.disk) :
    Durable opened storage after where
  storage_eq := by rw [hcatalog]; exact h.storage_eq
  directories := by rw [hdisk]; exact h.directories
  loadable hload := by rw [hdisk]; exact h.loadable hload
  stored hload := by rw [hdisk] at hload; exact h.stored hload
  resident hresident := by
    rw [hcatalog] at hresident
    rw [hdisk]
    exact h.resident hresident

/-- A database becomes current that is what its files load as. -/
theorem Durable.takes (h : Durable opened storage session) {catalog : Catalog} {name : String}
    {store loaded : Store} (htakes : session.catalog.Takes catalog name store)
    (hstore : store.Sound) (hload : storage.load session.disk name = .ok loaded)
    (hplain : loaded.plain = store.plain) :
    Durable opened storage { session with catalog } where
  storage_eq := htakes.storage.trans h.storage_eq
  directories := h.directories
  loadable := h.loadable
  stored := h.stored
  resident {other found} hresident := by
    rw [htakes.resident?] at hresident
    split at hresident
    next heq =>
      obtain rfl := Option.some.inj hresident
      exact ⟨hstore, loaded, heq ▸ hload, hplain⟩
    next => exact h.resident hresident

/-! ## §3. Saving. -/

namespace Session

theorem saved_of_canSave (hstorage : session.catalog.storage = some storage)
    (hcan : Storage.CanSave storage session.disk session.catalog.currentName) (store : Store)
    (outcome : Outcome) :
    (session.withStore store).saved outcome
      = (⟨{ session.catalog with current := store },
          Storage.saved storage session.disk session.catalog.currentName store,
          session.lastMatch⟩, .ok outcome) := by
  have hsave : storage.save session.disk session.catalog.currentName store
      = (Storage.saved storage session.disk session.catalog.currentName store, .ok ()) :=
    Storage.save_eq_ok_iff.2 ⟨hcan, rfl⟩
  simp only [saved, Catalog.save, withStore, hstorage, hsave]

theorem canSave_of_saved (hstorage : session.catalog.storage = some storage) {store : Store}
    {outcome : Outcome} (h : saveFailed ((session.withStore store).saved outcome).2 = false) :
    Storage.CanSave storage session.disk session.catalog.currentName := by
  simp only [saved, Catalog.save, withStore, hstorage] at h
  split at h
  next disk hsave => exact (Storage.save_eq_ok_iff.1 hsave).1
  next => cases h

end Session

/-- **The current database changes and is saved.** -/
theorem Durable.saved (h : Durable opened storage session) {store : Store} (hstore : store.Sound)
    {outcome : Outcome}
    (hsaved : saveFailed ((session.withStore store).saved outcome).2 = false) :
    Durable opened storage ((session.withStore store).saved outcome).1 := by
  have hcan := Session.canSave_of_saved h.storage_eq hsaved
  rw [Session.saved_of_canSave h.storage_eq hcan]
  have hread := (Store.preserved_of_holds hstore.idsFit hstore.holds).toReadable
  have hload := Storage.load_saved hstore.toIntegral hstore.idsFit hread.nestedWithin
    hread.floatsReadBack hcan
  obtain ⟨hreloaded, hplain⟩ := hstore.reloaded
  refine
    { storage_eq := h.storage_eq
      directories := h.directories.trans (Storage.keepsDirectories_saved hcan)
      loadable := fun {name store} hname => ?_
      stored := fun {name loaded} hname => ?_
      resident := fun {name found} hname => ?_ }
  · by_cases hcurrent : name = session.catalog.currentName
    · rw [hcurrent]
      exact ⟨_, hload⟩
    · rw [Storage.load_saved_of_ne hcan hcurrent]
      exact h.loadable hname
  · -- what loads now was written just now, or loaded before
    by_cases hcurrent : name = session.catalog.currentName
    · rw [hcurrent, hload] at hname
      exact Except.ok.inj hname ▸ hreloaded
    · rw [Storage.load_saved_of_ne hcan hcurrent] at hname
      exact h.stored hname
  · rw [(Catalog.takes_current session.catalog store).resident?] at hname
    split at hname
    next hcurrent =>
      rw [hcurrent]
      exact Option.some.inj hname ▸ ⟨hstore, _, hload, hplain⟩
    next hother =>
      rw [Storage.load_saved_of_ne hcan hother]
      exact h.resident hname

/-! ## §4. Statements and queries. -/

namespace Session

/-- **A statement leaves databases and files alone, or changes the current
store and saves it**, or changes nothing: nothing is left unsaved. -/
theorem execute_cases (session : Session) (statement : GraphStatement) :
    ((session.execute statement).1.catalog = session.catalog
        ∧ (session.execute statement).1.disk = session.disk)
      ∨ ∃ after outcome, session.execute statement = (session.withStore after).saved outcome := by
  cases statement with
  | search pattern condition => exact .inl ⟨rfl, rfl⟩
  | project vars distinct => exact .inl ⟨rfl, rfl⟩
  | delete vars => exact .inr ⟨_, _, rfl⟩
  | create pattern =>
    cases herror : Creation.error? pattern with
    | some error =>
      rw [execute, create_of_error herror]
      exact .inl ⟨rfl, rfl⟩
    | none => exact .inr (create_eq_saved session (error?_eq_none_iff.1 herror))

/-- **A statement keeps the current store sound** while the ids last. -/
theorem sound_execute (hstore : session.store.Sound) {statement : GraphStatement}
    (hcarries : statement.Carries PropertyMap.ComesBack) (hroom : session.HasRoom statement) :
    (session.execute statement).1.store.Sound := by
  cases statement with
  | search pattern condition => exact hstore
  | project vars distinct => exact hstore
  | delete vars =>
    rw [execute, delete, store_saved, store_withStore]
    exact hstore.foldl_deleteEntity _
  | create pattern =>
    rw [execute]
    have hholds : (session.create pattern).1.store.Holds PropertyMap.ComesBack :=
      (becomes_create hcarries).holds hstore.holds
    cases herror : Creation.error? pattern with
    | some error =>
      rw [create_of_error herror]
      exact hstore
    | none =>
      obtain ⟨after, hbounded, hcoherent, hgrown, hcreate⟩ :=
        create_of_canBeMade (hstore.bounded hstore.idsFit) (hroom herror)
          (error?_eq_none_iff.1 herror)
      rw [hcreate, store_saved, store_withStore] at hholds ⊢
      exact ⟨hcoherent hstore.toCoherent, hgrown.idsFit (hroom herror) hstore.idsFit hbounded,
        hholds⟩

end Session

theorem Durable.execute (h : Durable opened storage session) {statement : GraphStatement}
    (hcarries : statement.Carries PropertyMap.ComesBack) (hroom : session.HasRoom statement)
    (hsaved : saveFailed (session.execute statement).2 = false) :
    Durable opened storage (session.execute statement).1 := by
  have hafter := Session.sound_execute h.current hcarries hroom
  rcases session.execute_cases statement with ⟨hcatalog, hdisk⟩ | ⟨after, outcome, heq⟩
  · exact h.congr hcatalog hdisk
  · rw [heq] at hsaved hafter ⊢
    rw [Session.store_saved, Session.store_withStore] at hafter
    exact h.saved hafter hsaved

/-- **Statements keep the invariant**, also when one of them fails. -/
theorem Durable.executeAll {statements : List GraphStatement} : ∀ {session : Session},
    Durable opened storage session →
    (∀ statement ∈ statements, statement.Carries PropertyMap.ComesBack) →
    session.HasRoomAll statements → saveFailed (session.executeAll statements).2 = false →
    Durable opened storage (session.executeAll statements).1 := by
  induction statements with
  | nil => intro session h _ _ _; exact h
  | cons statement rest ih =>
    intro session h hcarries hroom hsaved
    obtain ⟨hfirst, hrest⟩ := List.forall_mem_cons.1 hcarries
    obtain ⟨hroomFirst, hroomRest⟩ := hroom
    have hnext := h.execute hfirst hroomFirst
    cases hexecute : session.execute statement with
    | mk next result =>
      rw [hexecute] at hnext hroomRest
      cases result with
      | error error =>
        rw [Session.executeAll_of_error hexecute] at hsaved ⊢
        exact hnext hsaved
      | ok outcome =>
        rw [Session.executeAll_of_ok hexecute] at hsaved ⊢
        rw [saveFailed_map] at hsaved
        exact ih (hnext rfl) hrest hroomRest hsaved

theorem Durable.run (h : Durable opened storage session) {text : String}
    (hfloats : (SessionStep.execute text).FloatsReadBack)
    (hroom : session.HasRoomStep (.execute text))
    (hsaved : saveFailed (session.run text).2 = false) :
    Durable opened storage (session.run text).1 := by
  unfold Session.run at hsaved ⊢
  split
  next => exact h
  next statements hparse =>
    rw [hparse] at hsaved
    exact h.executeAll (carries_comesBack_of_parse hparse (hfloats statements hparse))
      (hroom statements hparse) hsaved

/-! ## §5. Other databases. -/

theorem Durable.read_eq (h : Durable opened storage session) (name : String) :
    Catalog.read session.catalog.storage session.disk name = storage.load session.disk name := by
  rw [h.storage_eq]
  rfl

theorem Durable.select (h : Durable opened storage session) (name : String) :
    Durable opened storage (session.select name).1 := by
  unfold Session.select
  cases hvalid : validateName name with
  | error error =>
    rw [(Catalog.not_selected_of_invalid hvalid).1]
    exact h
  | ok =>
    cases hselected : session.catalog.selected session.disk name with
    | error error =>
      rw [Catalog.select_of_error hvalid hselected]
      exact h
    | ok store =>
      obtain ⟨after, hafter, htakes⟩ := Catalog.takes_of_select hvalid hselected
      rw [hafter]
      unfold Catalog.selected at hselected
      split at hselected
      next found hresident =>
        obtain rfl := Except.ok.inj hselected
        obtain ⟨hsound, loaded, hload, hplain⟩ := h.resident hresident
        exact h.takes htakes hsound hload hplain
      next =>
        rw [h.read_eq] at hselected
        exact h.takes htakes (h.stored hselected) hselected rfl

theorem Durable.reload (h : Durable opened storage session) (name : String) :
    Durable opened storage (session.reload name).1 := by
  unfold Session.reload
  cases hvalid : validateName name with
  | error error =>
    rw [(Catalog.not_selected_of_invalid hvalid).2]
    exact h
  | ok =>
    cases hread : Catalog.read session.catalog.storage session.disk name with
    | error error =>
      rw [Catalog.reload_of_error hvalid hread]
      exact h
    | ok store =>
      obtain ⟨after, hafter, htakes⟩ := Catalog.takes_of_reload hvalid hread
      rw [hafter]
      rw [h.read_eq] at hread
      exact h.takes htakes (h.stored hread) hread rfl

/-! ## §6. Steps and runs. -/

/-- **One step.** -/
theorem Durable.step (h : Durable opened storage session) {step : SessionStep}
    (hsmooth : session.SmoothStep step) : Durable opened storage (session.step step).1 := by
  cases step with
  | execute text => exact h.run hsmooth.floats hsmooth.room hsmooth.saves
  | select name => exact h.select name
  | reload name => exact h.reload name

/-- **A run.** -/
theorem Durable.runSteps {steps : List SessionStep} : ∀ {session : Session},
    Durable opened storage session → session.Smooth steps →
    Durable opened storage (session.runSteps steps).1 := by
  induction steps with
  | nil => intro session h _; exact h
  | cons step rest ih =>
    intro session h hsmooth
    exact ih (h.step hsmooth.1) hsmooth.2

/-- **The beginning**: a database is opened in a directory without files. -/
theorem durable_start {store : Store} {name : String}
    (hempty : ∀ base, opened.entry? (storage.directory ++ [base]) = none)
    (hload : storage.load opened name = .ok store) :
    Durable opened storage (Session.start (Catalog.single name store storage) opened) where
  storage_eq := rfl
  directories := .refl opened
  loadable h := ⟨_, h⟩
  stored h := Storage.eq_empty_of_load hempty h ▸ Store.sound_empty
  resident {other found} h := by
    have hresident : (Catalog.single name store storage).resident? other = some found := h
    rw [Catalog.resident?_single] at hresident
    split at hresident
    next heq =>
      obtain rfl := Option.some.inj hresident
      exact ⟨Storage.eq_empty_of_load hempty hload ▸ Store.sound_empty, store, heq ▸ hload, rfl⟩
    next => cases hresident

end PropertyGraph
