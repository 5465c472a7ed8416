/-
  PropertyGraph.Settings.Basic
  ────────────────────────────
  **HOW TO OPEN A DATABASE.**

  Settings say where databases are stored, which one is opened first, and
  how data files are laid out.  Without a data path everything stays in
  memory.  A settings file is a YAML mapping and may leave out any of them;
  other entries are passed over, and none of the three may occur twice.
-/
import PropertyGraph.Files.Storage
import PropertyGraph.Yaml.Node

namespace PropertyGraph

/-- The choices for opening a database. -/
structure Settings where
  /-- The directory of the data files, if there are any. -/
  dataPath : Option String
  /-- The database opened first. -/
  defaultDatabase : String
  /-- Are data files indented? -/
  pretty : Bool
  deriving DecidableEq

namespace Settings

/-- In memory, with a database named `default`, and indented files. -/
def default : Settings := ⟨none, "default", true⟩

instance : Inhabited Settings := ⟨default⟩

/-- Are databases stored in files? -/
def isPersistent (settings : Settings) : Bool := settings.dataPath.isSome

/-- The layout of data files. -/
def layout (settings : Settings) : Json.Layout :=
  if settings.pretty then .indented else .compact

/-! ## §1. Settings of a document. -/

/-- An entry with its key, which must be a scalar, and its value if that is a
scalar. -/
abbrev Entry := String × Option Yaml.Scalar

/-- The entries of a document.  A document that is left out or empty is a
mapping without entries. -/
def entries? : Option Yaml.Document → Option (List Entry)
  | none => some []
  | some document =>
    match document.root with
    | .scalar scalar => if scalar.style = .plain ∧ scalar.text = "" then some [] else none
    | .mapping entries =>
      entries.mapM (fun (key, value) =>
        (document.scalar? key).map (fun key => (key.text, document.scalar? value)))
    | _ => none

/-- The value of an entry that may occur at most once, and must be a scalar. -/
def entry? (entries : List Entry) (key : String) : Option (Option Yaml.Scalar) :=
  match entries.filter (fun entry => entry.1 == key) with
  | [] => some none
  | [entry] => entry.2.map some
  | _ => none

/-- A plain scalar in one of these spellings stands for no value. -/
def isNull (text : String) : Bool := ["~", "null", "Null", "NULL"].contains text

/-- A scalar as text, or no value.  With the tag of "no value" the scalar must
say so; with any other tag it is text. -/
def optionalText? : Yaml.Scalar → Option (Option String)
  | ⟨some tag, .plain, text⟩ =>
    if tag ≠ "tag:yaml.org,2002:null" then some (some text)
    else if isNull text then some none
    else none
  | ⟨none, .plain, text⟩ => if text = "" ∨ isNull text then some none else some (some text)
  | ⟨_, _, text⟩ => some (some text)

/-- A scalar that may be one of the spellings of a truth value: a plain one, or
a literal block with the tag of truth values. -/
def flagText? : Yaml.Scalar → Option String
  | ⟨_, .plain, text⟩ => some text
  | ⟨some "tag:yaml.org,2002:bool", .literal, text⟩ => some text
  | _ => none

/-- One of the spellings of a truth value. -/
def flag? (scalar : Yaml.Scalar) : Option Bool := do
  let text ← flagText? scalar
  if ["true", "True", "TRUE"].contains text then some true
  else if ["false", "False", "FALSE"].contains text then some false
  else none

/-- The settings of the entries of a document. -/
def ofEntries? (entries : List Entry) : Option Settings := do
  let dataPath ← match ← entry? entries "data_path" with
    | some value => optionalText? value
    | none => some default.dataPath
  let defaultDatabase ← match ← entry? entries "default_database" with
    | some value => some value.text
    | none => some default.defaultDatabase
  let pretty ← match ← entry? entries "pretty" with
    | some value => flag? value
    | none => some default.pretty
  return ⟨dataPath, defaultDatabase, pretty⟩

/-- The settings of a text. -/
def parse (text : String) : Except StorageError Settings :=
  match ((Yaml.Document.parse text).bind entries?).bind ofEntries? with
  | some settings => .ok settings
  | none => .error .malformedSettings

/-- The settings of a file. -/
def load (disk : Disk) (file : String) : Except StorageError Settings :=
  match (disk.locate? file).bind disk.text? with
  | some text => parse text
  | none => .error .disk

end Settings

end PropertyGraph
