/-
  PropertyGraph.Main
  ──────────────────
  **THE PROGRAM.**

  Runs a command line against the files of the machine.  The files that a
  command may read, the settings file and the data directory, are copied
  into a `Disk`; the command runs on that; and what it changed there is
  written back, after each line in the shell.
-/
import PropertyGraph.CommandLine.Shell

namespace PropertyGraph.Main

/-! ## §1. Files of the machine. -/

/-- The text of an absolute path. -/
def pathText (path : Path) : String := "/" ++ "/".intercalate path

/-- Bytes as the content of a file. -/
def contentOfBytes (bytes : ByteArray) : FileContent :=
  match String.fromUTF8? bytes with
  | some text => .text text
  | none => .binary bytes.toList

/-- The bytes of the content of a file. -/
def bytesOfContent : FileContent → ByteArray
  | .text text => text.toUTF8
  | .binary bytes => ⟨bytes.toArray⟩

/-- Copies the files of a directory onto the disk. -/
def copyFiles (disk : Disk) (directory : Path) : IO Disk := do
  let mut disk := disk
  for entry in ← (← IO.FS.realPath (pathText directory)).readDir do
    let inner := directory ++ [entry.fileName]
    if ← entry.path.isDir then
      disk := disk.put inner .directory
    else
      disk := disk.put inner (.file (contentOfBytes (← IO.FS.readBinFile entry.path)))
  return disk

/-- Copies what stands on the way along a written path onto the disk, and the
files of the directory at its end, if `deep`. -/
def copyIn (disk : Disk) (text : String) (deep : Bool) : IO Disk := do
  let mut disk := disk
  let mut place := disk.startOf text
  for name in (Disk.namesOf? text).getD [] do
    place := Disk.step place name
    match ← (IO.FS.realPath (pathText place)).toBaseIO with
    | .error _ => return disk
    | .ok found =>
      if ← found.isDir then
        disk := disk.put place .directory
      else
        return disk.put place (.file (contentOfBytes (← IO.FS.readBinFile found)))
  if deep then copyFiles disk place else return disk

/-- Writes back what has changed between two disks. -/
def copyOut (before after : Disk) : IO Unit := do
  for (path, _) in before.entries.entries do
    if (after.entry? path).isNone then
      IO.FS.removeFile (pathText path)
  for (path, entry) in after.entries.entries do
    if before.entry? path ≠ some entry then
      match entry with
      | .directory => IO.FS.createDirAll (pathText path)
      | .file content =>
        let part := pathText (Disk.temporary path)
        IO.FS.writeBinFile part (bytesOfContent content)
        IO.FS.rename part (pathText path)

/-- The disk that an invocation may read. -/
def diskFor (invocation : Invocation) (environment : Environment) : IO Disk := do
  let place := (← IO.FS.realPath ".").toString
  let start ← copyIn .empty place false
  let mut disk := { start with workingDirectory := (start.locate? place).getD [] }
  if let some file := invocation.config then
    disk ← copyIn disk file false
  if let .ok settings := invocation.settings environment disk then
    if let some directory := settings.dataPath then
      disk ← copyIn disk directory true
  return disk

/-! ## §2. Commands. -/

/-- Prints a reply. -/
def say (reply : Reply) : IO Unit := do
  IO.print reply.output
  IO.eprint reply.errors
  (← IO.getStdout).flush

/-- Answers lines until one ends the session or there are no more. -/
partial def shell (layout : Json.Layout) (session : Session) : IO Unit := do
  let line ← (← IO.getStdin).getLine
  if line.isEmpty then return
  match Shell.respond layout session (Shell.Line.parse line) with
  | none => return
  | some (next, reply) =>
    say reply
    copyOut session.disk next.disk
    shell layout next

/-- Runs a command line. -/
def run (arguments : List String) : IO UInt32 := do
  let environment : Environment := ⟨← IO.getEnv "COFFY_DATA", ← IO.getEnv "COFFY_DB"⟩
  match Invocation.empty.sort arguments with
  | none => return 2
  | some invocation =>
    let disk ← diskFor invocation environment
    match invocation.command?, CommandLine.open invocation environment disk with
    | none, _ => return 2
    | _, (opened, .error message) =>
      copyOut disk opened
      say (CommandLine.failed opened message).reply
      return 1
    | some .shell, (opened, .ok session) =>
      copyOut disk opened
      say Shell.banner
      shell (CommandLine.layout invocation) session
      return 0
    | some command, (_, .ok session) =>
      let result := CommandLine.execute (CommandLine.layout invocation) session "" command
      copyOut disk result.disk
      say result.reply
      return result.exitCode.toUInt32

end PropertyGraph.Main

/-- Runs the command line of the program. -/
def main (arguments : List String) : IO UInt32 := PropertyGraph.Main.run arguments
