/-
  PropertyGraph.Files.Error
  ─────────────────────────
  **WHY STORED STATE COULD NOT BE READ OR WRITTEN.**
-/
import PropertyGraph.Store.Basic
import PropertyGraph.Text.Quoted

namespace PropertyGraph

/-- The newest version of the data file format. -/
def formatVersion : Nat := 1

/-- A failure of reading or writing stored state. -/
inductive StorageError where
  /-- The disk refused. -/
  | disk
  /-- A data file does not have the form of one. -/
  | malformedData
  /-- A settings file does not have the form of one. -/
  | malformedSettings
  /-- A data file of a newer version. -/
  | unsupportedVersion (found : Nat)
  /-- A stored relationship joins a node that is not stored. -/
  | corruptGraph (cause : StoreError)
  /-- A name that cannot name a database. -/
  | invalidName (name : String)
  deriving DecidableEq

/-- The error in words. -/
def StorageError.message : StorageError → String
  | .disk => "I/O error"
  | .malformedData => "Serialization error"
  | .malformedSettings => "Configuration error"
  | .unsupportedVersion found =>
    s!"Unsupported format version {found} (supported up to {formatVersion})"
  | .corruptGraph cause => "Corrupt database: " ++ cause.message
  | .invalidName name => "Invalid database name: " ++ Text.quoted name

end PropertyGraph
