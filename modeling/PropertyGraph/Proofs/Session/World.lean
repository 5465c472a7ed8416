/-
  PropertyGraph.Proofs.Session.World
  ──────────────────────────────────
  **A SESSION ON INDEPENDENT STORES.**

  A `World` is a session with a registry in the place of the catalog.  What is
  done between two selections is done there by a session that has the selected
  store and no other, and only that store is replaced by what has become of it.
  A session and its world do the same in every run (`runUses_registry`), so no
  store is lost, doubled or shadowed on the way.
-/
import PropertyGraph.Proofs.Catalog.Registry
import PropertyGraph.Proofs.Session.Alone

namespace PropertyGraph

/-! ## §1. Uses and answers. -/

/-- One use of databases. -/
inductive CatalogUse where
  | «open» (settings : Settings)
  | select (name : String)
  | reload (name : String)
  | work (work : SessionWork)

/-- What it answers. -/
inductive UseAnswer where
  | opened (result : Except StorageError Unit)
  | selected (result : Except StorageError Unit)
  | reloaded (result : Except StorageError Unit)
  | worked (answer : WorkAnswer)

/-- A registry with the files and the last search of a session. -/
structure World where
  registry : Registry
  storage : Option Storage
  disk : Disk
  lastMatch : List Bindings

namespace World

/-- A world with an empty database in memory. -/
def start (disk : Disk) : World :=
  ⟨.single Settings.default.defaultDatabase .empty, none, disk, []⟩

/-- A session that has the selected store, and no other. -/
def alone (world : World) : Session :=
  ⟨⟨world.registry.selected, world.registry.current, ∅, world.storage⟩, world.disk,
    world.lastMatch⟩

/-- The world after a use, and the answer. -/
def use (world : World) : CatalogUse → World × UseAnswer
  | .open settings =>
    match Catalog.open settings world.disk with
    | (disk, .error error) => ({ world with disk }, .opened (.error error))
    | (disk, .ok catalog) =>
      (⟨.single settings.defaultDatabase catalog.current, catalog.storage, disk, []⟩,
        .opened (.ok ()))
  | .select name =>
    match world.registry.select world.storage world.disk name with
    | .error error => (world, .selected (.error error))
    | .ok registry => ({ world with registry }, .selected (.ok ()))
  | .reload name =>
    match world.registry.reload world.storage world.disk name with
    | .error error => (world, .reloaded (.error error))
    | .ok registry => ({ world with registry }, .reloaded (.ok ()))
  | .work work =>
    let (session, answer) := world.alone.work work
    ({ world with
        registry := world.registry.take world.registry.selected session.store
        disk := session.disk
        lastMatch := session.lastMatch },
      .worked answer)

/-- The world after all uses, and the answers in order. -/
def runUses (world : World) : List CatalogUse → World × List UseAnswer
  | [] => (world, [])
  | use :: rest =>
    let (world, answer) := world.use use
    let (world, answers) := world.runUses rest
    (world, answer :: answers)

end World

namespace Session

variable {session : Session} {name : String} {store : Store}

/-- The session after a use, and the answer. -/
def use (session : Session) : CatalogUse → Session × UseAnswer
  | .open settings =>
    match Catalog.open settings session.disk with
    | (disk, .error error) => ({ session with disk }, .opened (.error error))
    | (disk, .ok catalog) => (start catalog disk, .opened (.ok ()))
  | .select name =>
    let (session, result) := session.select name
    (session, .selected result)
  | .reload name =>
    let (session, result) := session.reload name
    (session, .reloaded result)
  | .work work =>
    let (session, answer) := session.work work
    (session, .worked answer)

/-- The session after all uses, and the answers in order. -/
def runUses (session : Session) : List CatalogUse → Session × List UseAnswer
  | [] => (session, [])
  | use :: rest =>
    let (session, answer) := session.use use
    let (session, answers) := session.runUses rest
    (session, answer :: answers)

/-- The session, seen from outside. -/
def world (session : Session) : World :=
  ⟨session.catalog.registry, session.catalog.storage, session.disk, session.lastMatch⟩

/-- Nothing of a session is hidden from there. -/
theorem eq_of_world_eq {left right : Session} (hleft : left.catalog.Proper)
    (hright : right.catalog.Proper) (h : left.world = right.world) : left = right := by
  have hcatalog : left.catalog = right.catalog :=
    hleft.eq_of_registry_eq hright (congrArg World.registry h) (congrArg World.storage h)
  have hdisk : left.disk = right.disk := congrArg World.disk h
  have hlast : left.lastMatch = right.lastMatch := congrArg World.lastMatch h
  cases left
  cases right
  cases hcatalog
  cases hdisk
  cases hlast
  rfl

theorem alone_world (session : Session) : session.world.alone = session.withParked ∅ := by
  unfold World.alone world
  rw [Catalog.current_registry]
  rfl

/-- **Work replaces the selected store by what has become of it alone.** -/
theorem work_world (session : Session) (work : SessionWork) :
    (session.use (.work work)).2 = (session.world.use (.work work)).2
      ∧ (session.use (.work work)).1.world = (session.world.use (.work work)).1 := by
  have hcatalog := catalog_work session work
  unfold Session.use World.use
  dsimp only
  rw [alone_world, work_withParked]
  refine ⟨rfl, ?_⟩
  have hregistry : (session.work work).1.catalog.registry
      = session.catalog.registry.take session.catalog.currentName (session.work work).1.store := by
    rw [hcatalog]
    exact (Catalog.takes_current _ _).registry
  have hstorage : (session.work work).1.catalog.storage = session.catalog.storage := by
    rw [hcatalog]
  unfold world
  rw [hregistry, hstorage]
  rfl

/-- **One use.** -/
theorem use_world (h : session.catalog.Proper) (use : CatalogUse) :
    (session.use use).2 = (session.world.use use).2
      ∧ (session.use use).1.world = (session.world.use use).1
      ∧ (session.use use).1.catalog.Proper := by
  cases use with
  | «open» settings =>
    unfold Session.use World.use world
    dsimp only
    cases hopen : Catalog.open settings session.disk with
    | mk disk result =>
      cases result with
      | error error => exact ⟨rfl, rfl, h⟩
      | ok catalog =>
        obtain ⟨hname, store, storage, -, rfl⟩ := Catalog.exists_of_open hopen
        exact ⟨rfl, rfl, Catalog.proper_single hname⟩
  | select name =>
    obtain ⟨hregistry, hproper⟩ := h.select session.disk name
    unfold Session.use World.use world Session.select
    dsimp only
    rw [← hregistry]
    cases hselect : session.catalog.select session.disk name with
    | error error => exact ⟨rfl, rfl, h⟩
    | ok after =>
      obtain ⟨hafter, hstorage⟩ := hproper after hselect
      exact ⟨rfl, congrArg (World.mk _ · _ _) hstorage, hafter⟩
  | reload name =>
    obtain ⟨hregistry, hproper⟩ := h.reload session.disk name
    unfold Session.use World.use world Session.reload
    dsimp only
    rw [← hregistry]
    cases hreload : session.catalog.reload session.disk name with
    | error error => exact ⟨rfl, rfl, h⟩
    | ok after =>
      obtain ⟨hafter, hstorage⟩ := hproper after hreload
      exact ⟨rfl, congrArg (World.mk _ · _ _) hstorage, hafter⟩
  | work work =>
    obtain ⟨hanswer, hworld⟩ := work_world session work
    refine ⟨hanswer, hworld, ?_⟩
    show (session.work work).1.catalog.Proper
    rw [catalog_work]
    exact Catalog.proper_withCurrent h _

/-- **Any number of them.** -/
theorem runUses_world (uses : List CatalogUse) : ∀ {session : Session}, session.catalog.Proper →
    (session.runUses uses).2 = (session.world.runUses uses).2
      ∧ (session.runUses uses).1.world = (session.world.runUses uses).1
      ∧ (session.runUses uses).1.catalog.Proper := by
  induction uses with
  | nil => intro session h; exact ⟨rfl, rfl, h⟩
  | cons use rest ih =>
    intro session h
    obtain ⟨hanswer, hworld, hproper⟩ := use_world h use
    obtain ⟨hanswers, hworlds, hpropers⟩ := ih hproper
    unfold runUses World.runUses
    dsimp only
    rw [← hworld, hanswer, hanswers]
    exact ⟨rfl, hworlds, hpropers⟩

/-- What can be relied on between two uses. -/
structure Orderly (session : Session) : Prop where
  /-- The current store is resident, and not parked as well. -/
  resident : session.catalog.resident? session.catalog.currentName = some session.store
  notParked : session.catalog.parked.find? session.catalog.currentName = none
  /-- The names are those of the resident databases, sorted and without
  repeats. -/
  sorted : session.catalog.names.Pairwise (fun a b => compare a b = .lt)
  names : session.catalog.names.Perm (session.catalog.parked.keys ++ [session.catalog.currentName])
  mem_names : ∀ name, name ∈ session.catalog.names
    ↔ ∃ store, session.catalog.resident? name = some store
  /-- Nothing of the session is hidden from outside. -/
  faithful : ∀ other : Session, other.catalog.Proper → other.world = session.world →
    other = session
  /-- An error changes nothing. -/
  select_error : ∀ name error, (session.select name).2 = .error error →
    (session.select name).1 = session
  reload_error : ∀ name error, (session.reload name).2 = .error error →
    (session.reload name).1 = session
  /-- Selecting a resident database moves the selector only, and selecting the
  one before brings back the session as it was. -/
  there_and_back : ∀ name store, session.catalog.resident? name = some store →
    ∃ there, session.select name = (there, .ok ())
      ∧ there.catalog.currentName = name ∧ there.store = store
      ∧ (∀ other, there.catalog.resident? other = session.catalog.resident? other)
      ∧ there.disk = session.disk ∧ there.lastMatch = session.lastMatch
      ∧ there.select session.catalog.currentName = (session, .ok ())

theorem orderly_of_proper (h : session.catalog.Proper) : session.Orderly where
  resident := Catalog.resident?_currentName
  notParked := h.notParked
  sorted := SortedMap.pairwise_keys _
  names := h.names_perm
  mem_names _ := Catalog.mem_names_iff
  faithful _ hother hworld := eq_of_world_eq hother h hworld
  select_error name error herror := by
    unfold Session.select at herror ⊢
    split
    next => rfl
    next hselect =>
      rw [hselect] at herror
      cases herror
  reload_error name error herror := by
    unfold Session.reload at herror ⊢
    split
    next => rfl
    next hreload =>
      rw [hreload] at herror
      cases herror
  there_and_back name store hresident := by
    obtain ⟨there, hselect, hthere, hstorage, hname, hstores⟩ :=
      h.select_resident session.disk hresident
    have hsame : ∀ other, there.resident? other = session.catalog.resident? other := fun other =>
      congrArg (SortedMap.find? · other) hstores
    obtain ⟨back, hback, hproper, hbackStorage, hbackName, hbackStores⟩ :=
      hthere.select_resident session.disk ((hsame _).trans Catalog.resident?_currentName)
    -- both moves together have moved nothing
    have heq : back = session.catalog :=
      hproper.eq_of_registry_eq h (Registry.ext (hbackStores.trans hstores) hbackName)
        (hbackStorage.trans hstorage)
    refine ⟨{ session with catalog := there }, ?_, hname, ?_, hsame, rfl, rfl, ?_⟩
    · unfold Session.select
      rw [hselect]
    · have hcurrent : there.resident? name = some there.current :=
        hname ▸ Catalog.resident?_currentName
      exact Option.some.inj (hcurrent.symm.trans ((hsame name).trans hresident))
    · unfold Session.select
      dsimp only
      rw [hback, heq]

/-- **A catalog is a map of independent stores with a selector.**  In every
run that begins with an empty database in memory, a session and its registry
answer alike, and remain the same seen from outside. -/
theorem runUses_registry (disk : Disk) (uses : List CatalogUse) :
    ((start .inMemory disk).runUses uses).2 = ((World.start disk).runUses uses).2
      ∧ ((start .inMemory disk).runUses uses).1.world = ((World.start disk).runUses uses).1
      ∧ ((start .inMemory disk).runUses uses).1.Orderly := by
  have hstart : (start .inMemory disk).catalog.Proper := Catalog.proper_single rfl
  obtain ⟨hanswers, hworld, hproper⟩ := runUses_world uses hstart
  exact ⟨hanswers, hworld, orderly_of_proper hproper⟩

/-- Databases are listed in order, whichever is selected. -/
example : ((start .inMemory .empty).runUses
    [.select "b", .work (.change (.createNode [] ∅)), .select "a", .select "b"]).1.catalog.names
      = ["a", "b", "default"] := by decide +kernel

end Session

end PropertyGraph
