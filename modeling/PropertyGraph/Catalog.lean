/-
  PropertyGraph.Catalog
  ─────────────────────
  **NAMED DATABASES, ONE OF THEM CURRENT.**

  A database is read from its files when it is selected for the first time
  and stays resident from then on; the ones that are not current are parked.
  Without storage a database that is selected for the first time is empty,
  and saving does nothing.

  A selection that fails, for its name or for its files, changes nothing.
-/
import PropertyGraph.Settings.Basic

namespace PropertyGraph

/-- Resident databases with the current one apart. -/
structure Catalog where
  currentName : String
  current : Store
  /-- Resident databases other than the current one. -/
  parked : SortedMap String Store
  storage : Option Storage

namespace Catalog

/-- One empty database in memory. -/
def inMemory : Catalog := ⟨Settings.default.defaultDatabase, .empty, ∅, none⟩

instance : Inhabited Catalog := ⟨inMemory⟩

/-! ## §1. Reading. -/

/-- A database from its files; an empty one without storage. -/
def read (storage : Option Storage) (disk : Disk) (name : String) : Except StorageError Store :=
  match storage with
  | some storage => storage.load disk name
  | none => .ok .empty

/-- Opens the database that the settings name.  The directory of the data
files is made even if the database then cannot be read. -/
def «open» (settings : Settings) (disk : Disk) : Disk × Except StorageError Catalog :=
  match validateName settings.defaultDatabase with
  | .error error => (disk, .error error)
  | .ok () =>
    let opened : Disk × Except StorageError (Option Storage) :=
      match settings.dataPath with
      | none => (disk, .ok none)
      | some path =>
        match Storage.open disk path settings.layout with
        | (disk, .ok storage) => (disk, .ok (some storage))
        | (disk, .error error) => (disk, .error error)
    match opened with
    | (disk, .error error) => (disk, .error error)
    | (disk, .ok storage) =>
      match read storage disk settings.defaultDatabase with
      | .error error => (disk, .error error)
      | .ok store => (disk, .ok ⟨settings.defaultDatabase, store, ∅, storage⟩)

/-! ## §2. Selection. -/

/-- Parks the current database and makes another one current. -/
def makeCurrent (catalog : Catalog) (name : String) (store : Store) : Catalog :=
  { catalog with
    currentName := name
    current := store
    parked := (catalog.parked.erase name).insert catalog.currentName catalog.current }

/-- Selects a database, from its files unless it is resident. -/
def select (catalog : Catalog) (disk : Disk) (name : String) : Except StorageError Catalog := do
  validateName name
  if name = catalog.currentName then return catalog
  match catalog.parked.find? name with
  | some store => return catalog.makeCurrent name store
  | none => return catalog.makeCurrent name (← read catalog.storage disk name)

/-- Selects a database, from its files even if it is resident. -/
def reload (catalog : Catalog) (disk : Disk) (name : String) : Except StorageError Catalog := do
  validateName name
  let store ← read catalog.storage disk name
  if name = catalog.currentName then return { catalog with current := store }
  else return catalog.makeCurrent name store

/-- Stores the current database. -/
def save (catalog : Catalog) (disk : Disk) : Disk × Except StorageError Unit :=
  match catalog.storage with
  | some storage => storage.save disk catalog.currentName catalog.current
  | none => (disk, .ok ())

/-! ## §3. Questions. -/

/-- The names of all resident databases in order. -/
def names (catalog : Catalog) : List String :=
  (catalog.parked.insert catalog.currentName catalog.current).keys

/-- Are databases stored in files? -/
def isPersistent (catalog : Catalog) : Bool := catalog.storage.isSome

end Catalog

end PropertyGraph
