/-
  PropertyGraph.Session.Basic
  ───────────────────────────
  **RUNNING STATEMENTS.**

  A session works on the databases of a catalog and the files of a disk.
  All it remembers between statements are the solutions of the last MATCH,
  which RETURN shows and DELETE follows, and which only another MATCH
  replaces, also when another database has become current.

  CREATE and DELETE save the current database once they are done.  If the
  save fails, the statement has failed, but its effects in memory stay.  A
  failing statement ends a query; what the statements before it did stays.
-/
import PropertyGraph.Catalog
import PropertyGraph.Query.Grammar
import PropertyGraph.Search.Pattern
import PropertyGraph.Session.Creation

namespace PropertyGraph

open PropertyGraph.Query

/-- Why a query failed. -/
inductive ExecutionError where
  | query (error : QueryError)
  | store (error : StoreError)
  | storage (error : StorageError)
  | creation (error : CreationError)
  deriving DecidableEq

/-- The error in words. -/
def ExecutionError.message : ExecutionError → String
  | .query error => error.message
  | .store error => "Graph error: " ++ error.message
  | .storage error => "Persistence error: " ++ error.message
  | .creation error => "Semantic error: " ++ error.message

/-- Databases, files, and the solutions of the last search. -/
structure Session where
  catalog : Catalog
  disk : Disk
  lastMatch : List Bindings

namespace Session

/-- A session without a search behind it. -/
def start (catalog : Catalog) (disk : Disk) : Session := ⟨catalog, disk, []⟩

instance : Inhabited Session := ⟨start .inMemory .empty⟩

/-- The current store. -/
def store (session : Session) : Store := session.catalog.current

/-- The session with another current store. -/
def withStore (session : Session) (store : Store) : Session :=
  { session with catalog := { session.catalog with current := store } }

/-- Stores the current database and passes on an outcome. -/
def saved (session : Session) (outcome : Outcome) : Session × Except ExecutionError Outcome :=
  match session.catalog.save session.disk with
  | (disk, .ok ()) => ({ session with disk }, .ok outcome)
  | (disk, .error error) => ({ session with disk }, .error (.storage error))

/-! ## §1. Statements. -/

/-- CREATE. -/
def create (session : Session) (pattern : GraphPattern) :
    Session × Except ExecutionError Outcome :=
  match Creation.error? pattern with
  | some error => (session, .error (.creation error))
  | none =>
    match (Creation.start session.store).elements pattern with
    | (creation, some (.pattern error)) =>
      (session.withStore creation.store, .error (.creation error))
    | (creation, some (.store error)) =>
      (session.withStore creation.store, .error (.store error))
    | (creation, none) =>
      (session.withStore creation.store).saved (.created creation.summary)

/-- MATCH. -/
def search (session : Session) (pattern : GraphPattern) (condition : Option (Condition Value)) :
    Session × Except ExecutionError Outcome :=
  let solutions := Search.pattern session.store condition pattern
  ({ session with lastMatch := solutions }, .ok (.found solutions))

/-- The rows that RETURN shows. -/
def rows (session : Session) (vars : List String) (distinct : Bool) : List Row :=
  let rows := session.lastMatch.map (Row.ofBindings vars)
  if distinct then Row.distinct rows else rows

/-- Deletes an entity, if it is still there. -/
def deleteEntity (store : Store) : EntityRef → Store
  | .node id => (store.deleteNode id).2
  | .relationship id => (store.deleteRelationship id).2

/-- The entities that some variables of a solution are bound to. -/
def boundEntities (vars : List String) (bindings : Bindings) : List EntityRef :=
  vars.filterMap (fun var => (bindings.find? var).map Entity.identity)

/-- The store without the entities bound to some variables. -/
def deleteBound (store : Store) (solutions : List Bindings) (vars : List String) : Store :=
  (solutions.flatMap (boundEntities vars)).foldl deleteEntity store

/-- DELETE. -/
def delete (session : Session) (vars : List String) : Session × Except ExecutionError Outcome :=
  let store := deleteBound session.store session.lastMatch vars
  (session.withStore store).saved
    (.deleted ⟨session.store.nodeCount - store.nodeCount,
      session.store.relationshipCount - store.relationshipCount⟩)

/-- Any statement. -/
def execute (session : Session) : GraphStatement → Session × Except ExecutionError Outcome
  | .create pattern => session.create pattern
  | .search pattern condition => session.search pattern condition
  | .project vars distinct => (session, .ok (.returned (session.rows vars distinct)))
  | .delete vars => session.delete vars

/-! ## §2. Queries. -/

/-- Statements in order, up to the first that fails. -/
def executeAll (session : Session) :
    List GraphStatement → Session × Except ExecutionError (List Outcome)
  | [] => (session, .ok [])
  | statement :: rest =>
    match session.execute statement with
    | (session, .error error) => (session, .error error)
    | (session, .ok outcome) =>
      match session.executeAll rest with
      | (session, .error error) => (session, .error error)
      | (session, .ok outcomes) => (session, .ok (outcome :: outcomes))

/-- The statements of a text. -/
def run (session : Session) (text : String) : Session × Except ExecutionError (List Outcome) :=
  match Query.parse text with
  | .error error => (session, .error (.query error))
  | .ok statements => session.executeAll statements

/-! ## §3. Databases. -/

/-- Selects a database. -/
def select (session : Session) (name : String) : Session × Except StorageError Unit :=
  match session.catalog.select session.disk name with
  | .error error => (session, .error error)
  | .ok catalog => ({ session with catalog }, .ok ())

/-- Reads a database again and selects it. -/
def reload (session : Session) (name : String) : Session × Except StorageError Unit :=
  match session.catalog.reload session.disk name with
  | .error error => (session, .error error)
  | .ok catalog => ({ session with catalog }, .ok ())

/-- Stores the current database. -/
def save (session : Session) : Session × Except StorageError Unit :=
  match session.catalog.save session.disk with
  | (disk, result) => ({ session with disk }, result)

end Session

end PropertyGraph
