/-
  PropertyGraph.Proofs.Catalog.Residence
  ──────────────────────────────────────
  **WHICH DATABASES ARE IN MEMORY.**

  The resident databases are the current one and the parked ones; `resident?`
  looks one up by its name.  Selecting and reading again have one effect, if
  they have any: the database of the name is current with some store, and every
  other one is what it was (`Takes`).  They differ in the store alone.

      takes_of_select  — the resident store, or else what is read
      takes_of_reload  — what is read

A catalog that has just been opened holds one database, the one of the
settings (`open_eq_ok_iff`).
-/
import PropertyGraph.Catalog
import PropertyGraph.Proofs.Files.Apart

namespace PropertyGraph.Catalog

variable {catalog after : Catalog} {disk : Disk} {name other : String} {store : Store}

/-! ## §1. Resident databases. -/

/-- The resident database of a name. -/
def resident? (catalog : Catalog) (name : String) : Option Store :=
  (catalog.parked.insert catalog.currentName catalog.current).find? name

theorem resident?_eq (catalog : Catalog) (name : String) :
    catalog.resident? name
      = if name = catalog.currentName then some catalog.current
        else catalog.parked.find? name :=
  SortedMap.find?_insert_eq _ _ _ _

theorem resident?_currentName : catalog.resident? catalog.currentName = some catalog.current := by
  rw [resident?_eq, if_pos rfl]

theorem mem_names_iff : name ∈ catalog.names ↔ ∃ store, catalog.resident? name = some store :=
  SortedMap.mem_keys_iff

/-! ## §2. Another database becomes current. -/

/-- `after` is `catalog` with `store` as the database `name`, and with that
database current. -/
structure Takes (catalog after : Catalog) (name : String) (store : Store) : Prop where
  currentName : after.currentName = name
  current : after.current = store
  storage : after.storage = catalog.storage
  resident? : ∀ other, after.resident? other
    = if other = name then some store else catalog.resident? other

theorem takes_makeCurrent (catalog : Catalog) (name : String) (store : Store) :
    catalog.Takes (catalog.makeCurrent name store) name store where
  currentName := rfl
  current := rfl
  storage := rfl
  resident? other := by
    rw [resident?_eq]
    show (if other = name then some store
      else ((catalog.parked.erase name).insert catalog.currentName catalog.current).find? other) = _
    by_cases hother : other = name
    · rw [if_pos hother, if_pos hother]
    · rw [if_neg hother, if_neg hother, SortedMap.find?_insert_eq, SortedMap.find?_erase_eq,
        if_neg hother, resident?_eq]

/-- The current database with another store. -/
theorem takes_current (catalog : Catalog) (store : Store) :
    catalog.Takes { catalog with current := store } catalog.currentName store where
  currentName := rfl
  current := rfl
  storage := rfl
  resident? other := by
    rw [resident?_eq, resident?_eq]
    split <;> rfl

theorem takes_self (catalog : Catalog) :
    catalog.Takes catalog catalog.currentName catalog.current :=
  takes_current catalog catalog.current

/-! ## §3. Selecting and reading again. -/

/-- The store that a selection takes: the resident one, or else what is
read. -/
def selected (catalog : Catalog) (disk : Disk) (name : String) : Except StorageError Store :=
  match catalog.resident? name with
  | some store => .ok store
  | none => read catalog.storage disk name

theorem selected_currentName (catalog : Catalog) (disk : Disk) :
    catalog.selected disk catalog.currentName = .ok catalog.current := by
  unfold selected
  rw [resident?_currentName]

theorem Takes.selected (h : catalog.Takes after name store) (disk : Disk) (other : String) :
    after.selected disk other
      = if other = name then .ok store else catalog.selected disk other := by
  unfold Catalog.selected
  rw [h.resident?, h.storage]
  by_cases hother : other = name
  · rw [if_pos hother, if_pos hother]
  · rw [if_neg hother, if_neg hother]

/-- **Saving the current database does not change what a selection takes.** -/
theorem selected_save (catalog : Catalog) (disk : Disk) (name : String) :
    catalog.selected (catalog.save disk).1 name = catalog.selected disk name := by
  unfold selected
  cases hresident : catalog.resident? name with
  | some store => rfl
  | none =>
    have hne : name ≠ catalog.currentName := by
      rintro rfl
      rw [resident?_currentName] at hresident
      cases hresident
    unfold save
    cases catalog.storage with
    | none => rfl
    | some storage => exact Storage.load_save_of_ne hne

/-- With a valid name, selecting is a matter of where the store comes from. -/
theorem select_eq (hname : validateName name = .ok ()) :
    catalog.select disk name
      = if name = catalog.currentName then .ok catalog
        else (catalog.selected disk name).map (catalog.makeCurrent name) := by
  unfold select selected
  rw [hname, resident?_eq]
  show (if name = catalog.currentName then _ else _) = _
  by_cases hcurrent : name = catalog.currentName
  · rw [if_pos hcurrent, if_pos hcurrent]
    rfl
  · rw [if_neg hcurrent, if_neg hcurrent, if_neg hcurrent]
    cases catalog.parked.find? name with
    | some parked => rfl
    | none =>
      show (read catalog.storage disk name >>= _) = (read catalog.storage disk name).map _
      cases read catalog.storage disk name <;> rfl

/-- **A selection with a valid name takes that store.** -/
theorem takes_of_select (hname : validateName name = .ok ())
    (h : catalog.selected disk name = .ok store) :
    ∃ after, catalog.select disk name = .ok after ∧ catalog.Takes after name store := by
  rw [select_eq hname, h]
  by_cases hcurrent : name = catalog.currentName
  · rw [if_pos hcurrent]
    rw [hcurrent, selected_currentName] at h
    obtain rfl := Except.ok.inj h
    exact ⟨catalog, rfl, hcurrent ▸ takes_self catalog⟩
  · rw [if_neg hcurrent]
    exact ⟨_, rfl, takes_makeCurrent catalog name store⟩

theorem select_of_error {error : StorageError} (hname : validateName name = .ok ())
    (h : catalog.selected disk name = .error error) :
    catalog.select disk name = .error error := by
  rw [select_eq hname, h, if_neg]
  · rfl
  · intro hcurrent
    unfold selected at h
    rw [hcurrent, resident?_currentName] at h
    cases h

/-- **Reading again takes what is read.** -/
theorem takes_of_reload (hname : validateName name = .ok ())
    (h : read catalog.storage disk name = .ok store) :
    ∃ after, catalog.reload disk name = .ok after ∧ catalog.Takes after name store := by
  unfold reload
  rw [hname, h]
  by_cases hcurrent : name = catalog.currentName
  · exact ⟨_, if_pos hcurrent, hcurrent ▸ takes_current catalog store⟩
  · exact ⟨_, if_neg hcurrent, takes_makeCurrent catalog name store⟩

theorem reload_of_error {error : StorageError} (hname : validateName name = .ok ())
    (h : read catalog.storage disk name = .error error) :
    catalog.reload disk name = .error error := by
  unfold reload
  rw [hname, h]
  rfl

theorem not_selected_of_invalid {error : StorageError} (h : validateName name = .error error) :
    catalog.select disk name = .error error ∧ catalog.reload disk name = .error error := by
  unfold select reload
  rw [h]
  exact ⟨rfl, rfl⟩

/-! ## §4. Opening. -/

/-- The catalog with one database, kept in files. -/
def single (name : String) (store : Store) (storage : Storage) : Catalog :=
  ⟨name, store, ∅, some storage⟩

theorem resident?_single (name : String) (store : Store) (storage : Storage) (other : String) :
    (single name store storage).resident? other = if other = name then some store else none :=
  resident?_eq _ _

/-- Right after opening every database is what its files hold. -/
theorem selected_single {storage : Storage} (hload : storage.load disk name = .ok store)
    (other : String) :
    (single name store storage).selected disk other = storage.load disk other := by
  unfold selected
  rw [resident?_single]
  by_cases hother : other = name
  · rw [if_pos hother, hother, hload]
  · rw [if_neg hother]
    rfl

/-- **Opening stored databases**: the directory is opened and the database of
the settings is loaded. -/
theorem open_eq_ok_iff {settings : Settings} {opened : Disk} {storage : Storage} :
    Catalog.open settings disk = (opened, .ok catalog) ∧ catalog.storage = some storage
      ↔ ∃ path store, settings.dataPath = some path
          ∧ Storage.open disk path settings.layout = (opened, .ok storage)
          ∧ storage.load opened settings.defaultDatabase = .ok store
          ∧ catalog = single settings.defaultDatabase store storage := by
  constructor
  · rintro ⟨h, hstorage⟩
    unfold Catalog.open at h
    split at h
    next => cases h
    next =>
      cases hpath : settings.dataPath with
      | none =>
        rw [hpath] at h
        obtain ⟨-, hcatalog⟩ := Prod.mk.inj h
        obtain rfl := Except.ok.inj hcatalog
        cases hstorage
      | some path =>
        rw [hpath] at h
        dsimp only at h
        cases hopen : Storage.open disk path settings.layout with
        | mk made result =>
          rw [hopen] at h
          cases result with
          | error error => cases h
          | ok found =>
            dsimp only [read] at h
            cases hload : found.load made settings.defaultDatabase with
            | error error =>
              rw [hload] at h
              cases h
            | ok store =>
              rw [hload] at h
              obtain ⟨rfl, hcatalog⟩ := Prod.mk.inj h
              obtain rfl := Except.ok.inj hcatalog
              obtain rfl := Option.some.inj hstorage
              exact ⟨path, store, rfl, hopen, hload, rfl⟩
  · rintro ⟨path, store, hpath, hopen, hload, rfl⟩
    refine ⟨?_, rfl⟩
    unfold Catalog.open
    rw [Storage.validateName_of_load hload, hpath]
    dsimp only
    rw [hopen]
    dsimp only [read]
    rw [hload]
    rfl
end PropertyGraph.Catalog
