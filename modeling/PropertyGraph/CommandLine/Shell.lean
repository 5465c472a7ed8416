/-
  PropertyGraph.CommandLine.Shell
  ───────────────────────────────
  **ANSWERS ON THE COMMAND LINE.**

  A query is answered with the list of its outcomes as JSON.  The shell
  takes one query a line and a few commands that begin with a colon; the
  word of a command ends at the first blank.  Results go to the output,
  everything else to the error output, and in the shell an error does not
  end the session.
-/
import PropertyGraph.CommandLine.Invocation
import PropertyGraph.Session.Basic
import PropertyGraph.Text.Blank

namespace PropertyGraph

/-- Text for the output and for the error output. -/
structure Reply where
  output : String
  errors : String
  deriving DecidableEq

namespace Reply

/-- Nothing to say. -/
def silent : Reply := ⟨"", ""⟩

/-- A line of output. -/
def line (text : String) : Reply := ⟨text ++ "\n", ""⟩

/-- A line for the error output. -/
def note (text : String) : Reply := ⟨"", text ++ "\n"⟩

/-- A line that reports an error. -/
def error (message : String) : Reply := note ("Error: " ++ message)

/-- One reply after the other. -/
def append (first second : Reply) : Reply :=
  ⟨first.output ++ second.output, first.errors ++ second.errors⟩

instance : Append Reply := ⟨append⟩

end Reply

namespace Shell

/-- Outcomes as they are shown. -/
def outcomesText (layout : Json.Layout) (outcomes : List Outcome) : String :=
  ((Json.array (outcomes.map Outcome.toJson)).normalize).text layout

/-- The answer to a query. -/
def answer (layout : Json.Layout) (session : Session) (text : String) :
    Session × Except ExecutionError String :=
  match session.run text with
  | (session, .ok outcomes) => (session, .ok (outcomesText layout outcomes))
  | (session, .error error) => (session, .error error)

/-! ## §1. Lines of the shell. -/

/-- What the shell says first. -/
def banner : Reply :=
  .note "Coffy shell. Type Cypher queries, or :help for commands. :quit to exit."

/-- The list of commands. -/
def help : Reply :=
  ["Commands:",
    "  :use <name>  Switch database",
    "  :dbs         List resident databases",
    "  :save        Save the current database",
    "  :quit        Exit shell",
    "  <cypher>     Execute a Cypher query"].foldl (fun reply line => reply ++ .note line) .silent

/-- A line of the shell, understood. -/
inductive Line where
  | empty
  | quit
  | help
  | use (name : String)
  | databases
  | save
  | query (text : String)
  deriving DecidableEq

/-- What a line asks for. -/
def Line.parse (line : String) : Line :=
  let text := Text.trim line.toList
  let word := String.ofList (text.takeWhile (· ≠ ' '))
  let rest := (text.dropWhile (· ≠ ' ')).drop 1
  if text.isEmpty then .empty
  else if [":quit", ":exit", ":q"].contains word then .quit
  else if [":help", ":h"].contains word then .help
  else if word = ":use" then .use (String.ofList (Text.trim rest))
  else if word = ":dbs" then .databases
  else if word = ":save" then .save
  else .query (String.ofList text)

/-- The resident databases, the current one marked. -/
def databasesReply (catalog : Catalog) : Reply :=
  catalog.names.foldl
    (fun reply name =>
      reply ++ .line ((if name = catalog.currentName then "* " else "  ") ++ name)) .silent

/-- The answer to a line; `none` ends the session. -/
def respond (layout : Json.Layout) (session : Session) : Line → Option (Session × Reply)
  | .empty => some (session, .silent)
  | .quit => none
  | .help => some (session, help)
  | .use name =>
    match session.select name with
    | (session, .ok ()) => some (session, .note ("Using database '" ++ name ++ "'"))
    | (session, .error error) => some (session, .error error.message)
  | .databases => some (session, databasesReply session.catalog)
  | .save =>
    match session.save with
    | (session, .ok ()) => some (session, .silent)
    | (session, .error error) => some (session, .error error.message)
  | .query text =>
    match answer layout session text with
    | (session, .ok shown) => some (session, .line shown)
    | (session, .error error) => some (session, .error error.message)

/-- The answers to several lines, up to one that ends the session. -/
def respondAll (layout : Json.Layout) (session : Session) : List String → Session × Reply
  | [] => (session, .silent)
  | line :: rest =>
    match respond layout session (Line.parse line) with
    | none => (session, .silent)
    | some (session, reply) =>
      match respondAll layout session rest with
      | (session, replies) => (session, reply ++ replies)

end Shell

/-! ## §2. A whole run. -/

/-- How a run ended. -/
structure RunResult where
  exitCode : Nat
  reply : Reply
  disk : Disk

namespace CommandLine

/-- The version of the program. -/
def version : String := "0.1.0"

/-- A run that failed. -/
def failed (disk : Disk) (message : String) : RunResult := ⟨1, .error message, disk⟩

/-- Opens the database that an invocation asks for. -/
def «open» (invocation : Invocation) (environment : Environment) (disk : Disk) :
    Disk × Except String Session :=
  match invocation.settings environment disk with
  | .error error =>
    (disk, .error ("reading config " ++ invocation.config.getD "" ++ ": " ++ error.message))
  | .ok settings =>
    match Catalog.open settings disk with
    | (disk, .error error) => (disk, .error ("opening database: " ++ error.message))
    | (disk, .ok catalog) => (disk, .ok (Session.start catalog disk))

/-- The layout of results. -/
def layout (invocation : Invocation) : Json.Layout :=
  if invocation.compact then .compact else .indented

/-- Runs a command in an opened session; `input` is what is typed in. -/
def execute (layout : Json.Layout) (session : Session) (input : String) : Command → RunResult
  | .query text =>
    match Shell.answer layout session text with
    | (session, .ok shown) => ⟨0, .line shown, session.disk⟩
    | (session, .error error) => failed session.disk error.message
  | .shell =>
    match Shell.respondAll layout session (input.splitOn "\n") with
    | (session, replies) => ⟨0, Shell.banner ++ replies, session.disk⟩

/-- A whole run; nothing if the arguments form no command. -/
def run (arguments : List String) (environment : Environment) (input : String) (disk : Disk) :
    Option RunResult := do
  let invocation ← Invocation.empty.sort arguments
  let command ← invocation.command?
  match CommandLine.open invocation environment disk with
  | (disk, .error message) => return failed disk message
  | (_, .ok session) => return execute (layout invocation) session input command

end CommandLine

end PropertyGraph
