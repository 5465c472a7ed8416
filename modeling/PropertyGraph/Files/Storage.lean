/-
  PropertyGraph.Files.Storage
  ───────────────────────────
  **DATABASES IN FILES.**

  A database `name` lives in two files of one directory, `name_nodes.json`
  and `name_rels.json`.  Saving replaces one after the other, nodes first,
  each as a whole; a database without files loads as an empty store.

  A save may have been interrupted between the two files, so loading drops
  relationships whose nodes are missing, and keeps their ids reserved.

  A file is reached through the directory as it was written, so the name of
  a database may be too long after one way of writing a directory and not
  after another.
-/
import PropertyGraph.Files.Disk
import PropertyGraph.Files.Record
import PropertyGraph.Json.Printer
import PropertyGraph.Json.Reader

namespace PropertyGraph

/-! ## §1. Names. -/

/-- Characters of the name of a database. -/
def isNameChar (c : Char) : Bool := c.isAlphanum || c == '_' || c == '-'

/-- Can the text name a database? -/
def isDatabaseName (name : String) : Bool := name ≠ "" && name.toList.all isNameChar

/-- Refuses a text that cannot name a database. -/
def validateName (name : String) : Except StorageError Unit :=
  if isDatabaseName name then .ok () else .error (.invalidName name)

/-! ## §2. The store of two files. -/

/-- Arrays and objects of a data file may be nested this deep. -/
def nestingLimit : Nat := 127

/-- Restores a relationship, or keeps its id reserved if a node is missing. -/
def Store.restoreOrReserve (store : Store) (relationship : Relationship) : Store :=
  match store.restoreRelationship relationship with
  | .ok store => store
  | .error _ => store.reserve 1 (nextId relationship.id)

/-- The store of the contents of two files. -/
def Store.ofCollections (nodes : Collection Node) (relationships : Collection Relationship) :
    Store :=
  let store := nodes.records.foldl Store.restoreNode Store.empty
  let store := relationships.records.foldl Store.restoreOrReserve store
  store.reserve (nodes.nextId.getD 1) (relationships.nextId.getD 1)

namespace Store

/-- What the nodes file of a store holds. -/
def nodesEnvelope (store : Store) : Json :=
  Collection.envelope store.nextNodeId (store.allNodes.map Node.toRecord)

/-- What the relationships file of a store holds. -/
def relationshipsEnvelope (store : Store) : Json :=
  Collection.envelope store.nextRelationshipId (store.allRelationships.map Relationship.toRecord)

end Store

/-! ## §3. Storage. -/

/-- A directory of databases and the layout of its files. -/
structure Storage where
  directory : Path
  /-- The directory as it was written. -/
  written : String
  layout : Json.Layout
  deriving DecidableEq

namespace Storage

/-- The file of a database's nodes. -/
def nodesFile (storage : Storage) (name : String) : Path :=
  storage.directory ++ [name ++ "_nodes.json"]

/-- The file of a database's relationships. -/
def relationshipsFile (storage : Storage) (name : String) : Path :=
  storage.directory ++ [name ++ "_rels.json"]

/-- A file of the directory as it is written. -/
def writtenFile (storage : Storage) (file : Path) : String :=
  let separator := if storage.written.toList.getLast?.all (· = '/') then "" else "/"
  storage.written ++ separator ++ file.getLast?.getD ""

/-- Is a file of the directory written short enough to be reached? -/
def reaches (storage : Storage) (file : Path) : Bool :=
  Disk.isShortPath (storage.writtenFile file)

/-- A storage in a directory, which is made if it is not there. -/
def «open» (disk : Disk) (directory : String) (layout : Json.Layout) :
    Disk × Except StorageError Storage :=
  match disk.createDirectory directory with
  | (disk, some path) => (disk, .ok ⟨path, directory, layout⟩)
  | (disk, none) => (disk, .error .disk)

/-! ## §4. Data files. -/

/-- The contents of a data file. -/
def readCollection {ρ : Type} (ofRecord? : Json → Option ρ) (storage : Storage) (disk : Disk)
    (path : Path) : Except StorageError (Collection ρ) :=
  if ¬ storage.reaches path then .error .disk
  else match disk.entry? path with
  | none => if disk.isMissing path then .ok .empty else .error .disk
  | some (.file (.text text)) =>
    match Json.parse nestingLimit text with
    | some json => Collection.ofJson ofRecord? json
    | none => .error .malformedData
  | some _ => .error .malformedData

/-- Writes a data file; the flag tells whether it is in place.  It is written
by way of a longer name, which has to be short enough. -/
def writeFile (storage : Storage) (disk : Disk) (path : Path) (text : String) : Disk × Bool :=
  if storage.reaches (Disk.temporary path) then disk.replaceFile path text else (disk, false)

/-- The stored database of a name. -/
def load (storage : Storage) (disk : Disk) (name : String) : Except StorageError Store := do
  validateName name
  let nodes ← storage.readCollection Node.ofRecord? disk (storage.nodesFile name)
  let relationships ←
    storage.readCollection Relationship.ofRecord? disk (storage.relationshipsFile name)
  return Store.ofCollections nodes relationships

/-- Stores a database under a name. -/
def save (storage : Storage) (disk : Disk) (name : String) (store : Store) :
    Disk × Except StorageError Unit :=
  match validateName name with
  | .error error => (disk, .error error)
  | .ok () =>
    match storage.writeFile disk (storage.nodesFile name)
        (store.nodesEnvelope.text storage.layout) with
    | (disk, false) => (disk, .error .disk)
    | (disk, true) =>
      match storage.writeFile disk (storage.relationshipsFile name)
          (store.relationshipsEnvelope.text storage.layout) with
      -- the new nodes stand beside the old relationships now
      | (disk, false) => (disk, .error .disk)
      | (disk, true) => (disk, .ok ())

end Storage

end PropertyGraph
