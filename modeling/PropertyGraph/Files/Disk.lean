/-
  PropertyGraph.Files.Disk
  ────────────────────────
  **FILES AND DIRECTORIES.**

  A disk is a finite map from paths to files and directories.  The
  operations are the few that storing a database needs, each of which either
  succeeds or leaves the disk as it was; only a failed write may leave a
  part of its text behind.

  A written path is followed name by name, and what stands there counts:
  `..` leads up from a directory, never out of a file or a place that is not
  there.

  Besides the refusals that follow from what is there (a directory in the
  way, no directory to put a file into) and from names and written paths
  that are too long, a disk can be faulty: `faults` lists operations on
  single paths that fail although nothing stands in their way.

  `replaceFile` is how every data file is written: the text goes to a
  temporary file beside it, which takes the place of the old file only once
  it is complete, and is removed otherwise if that can be done.
-/
import PropertyGraph.SortedMap.Basic

namespace PropertyGraph

/-- The names from the root to a file or directory. -/
abbrev Path := List String

/-- What a file holds. -/
inductive FileContent where
  | text (s : String)
  /-- Bytes that are no text. -/
  | binary (bytes : List UInt8)
  deriving DecidableEq

/-- What stands at a path. -/
inductive DiskEntry where
  | file (content : FileContent)
  | directory
  deriving DecidableEq

/-- An operation that fails on one path. -/
inductive DiskFault where
  /-- The file cannot be created. -/
  | create (path : Path)
  /-- Writing stops after `part`. -/
  | write (path : Path) (part : String)
  /-- No file can be renamed to this path. -/
  | rename (path : Path)
  /-- What stands there cannot be removed. -/
  | remove (path : Path)
  deriving DecidableEq

/-- Files and directories below a root that is always there. -/
structure Disk where
  entries : SortedMap Path DiskEntry
  /-- Where relative paths start. -/
  workingDirectory : Path
  faults : List DiskFault

namespace Disk

/-- A disk with nothing on it. -/
def empty : Disk := ⟨∅, [], []⟩

instance : Inhabited Disk := ⟨empty⟩

/-! ## §1. Questions. -/

/-- What stands at a path. -/
def entry? (disk : Disk) (path : Path) : Option DiskEntry :=
  if path = [] then some .directory else disk.entries.find? path

/-- Is there a directory at the path? -/
def isDirectory (disk : Disk) (path : Path) : Bool := disk.entry? path = some .directory

/-- The text of a file, if there is one. -/
def text? (disk : Disk) (path : Path) : Option String :=
  match disk.entry? path with
  | some (.file (.text s)) => some s
  | _ => none

/-- The names directly inside a directory, in order. -/
def names (disk : Disk) (directory : Path) : List String :=
  disk.entries.keys.filterMap (fun path =>
    if path.dropLast = directory then path.getLast? else none)

/-- A name has at most this many bytes. -/
def nameLimit : Nat := 255

/-- Is the last name of the path short enough to be looked up? -/
def hasShortName (path : Path) : Bool := (path.getLast?.getD "").utf8ByteSize ≤ nameLimit

/-- Does a way end at a name that is not there?  A file on the way, or a name
too long to be looked up, is another matter. -/
def endsAtMissing (disk : Disk) (place : Path) : List String → Bool
  | [] => false
  | name :: names =>
    let next := place ++ [name]
    match disk.entry? next with
    | some .directory => disk.endsAtMissing next names
    | some (.file _) => false
    | none => hasShortName next

/-- Is nothing at the path because it, or a directory on the way, is not
there? -/
def isMissing (disk : Disk) (path : Path) : Bool := disk.endsAtMissing [] path

/-- The fault of writing to a path, if there is one. -/
def writeFault? (disk : Disk) (path : Path) : Option String :=
  disk.faults.findSome? (fun fault =>
    match fault with
    | .write faulty part => if faulty = path then some part else none
    | _ => none)

/-! ## §2. Written paths. -/

/-- A name that leads nowhere. -/
def isIdle (name : String) : Bool := name = "" || name = "."

/-- One name further. -/
def step (path : Path) (name : String) : Path :=
  if isIdle name then path
  else if name = ".." then path.dropLast
  else path ++ [name]

/-- Where a written path starts: at the root or in the working directory. -/
def startOf (disk : Disk) (text : String) : Path :=
  match text.toList with
  | '/' :: _ => []
  | _ => disk.workingDirectory

/-- A written path has at most this many bytes, idle names included. -/
def pathLimit : Nat := 4095

/-- Is a written path short enough to be followed? -/
def isShortPath (text : String) : Bool := text.utf8ByteSize ≤ pathLimit

/-- The names of a written path; none with a NUL, none if it is too long. -/
def namesOf? (text : String) : Option (List String) :=
  if text.toList.contains '\x00' || !isShortPath text then none else some (text.splitOn "/")

/-- Follows names, each from a directory. -/
def follow? (disk : Disk) (place : Path) : List String → Option Path
  | [] => some place
  | name :: names =>
    if disk.isDirectory place then disk.follow? (step place name) names else none

/-- The path that a text names, if it leads anywhere. -/
def locate? (disk : Disk) (text : String) : Option Path := do
  disk.follow? (disk.startOf text) (← namesOf? text)

/-! ## §3. Changes. -/

/-- The disk with `entry` at `path`. -/
def put (disk : Disk) (path : Path) (entry : DiskEntry) : Disk :=
  { disk with entries := disk.entries.insert path entry }

/-- The disk with nothing at `path`. -/
def erase (disk : Disk) (path : Path) : Disk :=
  { disk with entries := disk.entries.erase path }

/-- The disk without a file at `path`; a directory stays, and so does a file
that cannot be removed. -/
def removeFile (disk : Disk) (path : Path) : Disk :=
  match disk.entry? path with
  | some (.file _) => if .remove path ∈ disk.faults then disk else disk.erase path
  | _ => disk

/-- Can a directory be made where nothing stands yet?  `rest` is the names
after it: a path that ends in `.` names a directory that is there already. -/
def canMake (path : Path) (rest : List String) : Bool :=
  hasShortName path && !(rest.contains "." && rest.all isIdle)

/-- Follows names and makes the directories that are missing on the way.
Those made before a name that leads nowhere stay. -/
def createDirectories (disk : Disk) (place : Path) : List String → Disk × Option Path
  | [] => (disk, some place)
  | name :: rest =>
    let next := step place name
    match disk.entry? next with
    | some .directory => disk.createDirectories next rest
    | some (.file _) => (disk, none)
    | none =>
      if canMake next rest then (disk.put next .directory).createDirectories next rest
      else (disk, none)

/-- The directory that a text names, made if it is not there. -/
def createDirectory (disk : Disk) (text : String) : Disk × Option Path :=
  match namesOf? text with
  | some names => disk.createDirectories (disk.startOf text) names
  | none => (disk, none)

/-- Makes an empty file, in the place of an older one. -/
def createFile (disk : Disk) (path : Path) : Option Disk :=
  if .create path ∈ disk.faults ∨ disk.isDirectory path ∨ ¬ disk.isDirectory path.dropLast
      ∨ ¬ hasShortName path then
    none
  else some (disk.put path (.file (.text "")))

/-- Writes a file that has been created; the flag tells whether all of the
text arrived. -/
def writeText (disk : Disk) (path : Path) (text : String) : Disk × Bool :=
  match disk.writeFault? path with
  | some part => (disk.put path (.file (.text part)), false)
  | none => (disk.put path (.file (.text text)), true)

/-- Moves a file, in the place of an older one. -/
def rename (disk : Disk) (source target : Path) : Option Disk :=
  match disk.entry? source with
  | some (.file content) =>
    if .rename target ∈ disk.faults ∨ disk.isDirectory target
        ∨ ¬ disk.isDirectory target.dropLast then none
    else some ((disk.erase source).put target (.file content))
  | _ => none

/-! ## §4. Replacing a file. -/

/-- The path of the temporary file beside a file. -/
def temporary (path : Path) : Path :=
  path.dropLast ++ [path.getLast?.getD "" ++ ".tmp"]

/-- Writes a file by way of its temporary file; the flag tells whether the
new text is in place.  If it is not, the temporary file is removed, unless
that fails as well. -/
def replaceFile (disk : Disk) (path : Path) (text : String) : Disk × Bool :=
  match disk.createFile (temporary path) with
  | none => (disk.removeFile (temporary path), false)
  | some created =>
    match created.writeText (temporary path) text with
    | (written, false) => (written.removeFile (temporary path), false)
    | (written, true) =>
      match written.rename (temporary path) path with
      | none => (written.removeFile (temporary path), false)
      | some renamed => (renamed, true)

end Disk

end PropertyGraph
