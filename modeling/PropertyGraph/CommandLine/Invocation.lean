/-
  PropertyGraph.CommandLine.Invocation
  ────────────────────────────────────
  **WHAT A COMMAND LINE ASKS FOR.**

      --data-path DIR   where databases are stored
      --db NAME         the database to open
      --config FILE     a settings file
      --compact         results on one line
      query TEXT        run one query
      shell             run the queries typed in, one a line

  Options may stand before or after the command, and `--option=value` is one
  argument.  An option counts before its environment variable, and both
  before the settings file.
-/
import PropertyGraph.Settings.Basic

namespace PropertyGraph

/-- What to do with the opened database. -/
inductive Command where
  | query (text : String)
  | shell
  deriving DecidableEq

/-- The arguments, sorted by what they are. -/
structure Invocation where
  dataPath : Option String
  database : Option String
  config : Option String
  compact : Bool
  /-- The arguments that are no options, in order. -/
  words : List String
  deriving DecidableEq

/-- The variables of the environment that stand in for options. -/
structure Environment where
  dataPath : Option String
  database : Option String
  deriving DecidableEq

namespace Invocation

/-- No arguments. -/
def empty : Invocation := ⟨none, none, none, false, []⟩

/-- Splits `--option=value`. -/
def splitValue (argument : String) : String × Option String :=
  let chars := argument.toList
  match chars.dropWhile (· ≠ '=') with
  | '=' :: value => (String.ofList (chars.takeWhile (· ≠ '=')), some (String.ofList value))
  | _ => (argument, none)

/-- Sets an option that takes a value. -/
def setOption? (invocation : Invocation) (name value : String) : Option Invocation :=
  match name with
  | "--data-path" => some { invocation with dataPath := some value }
  | "--db" => some { invocation with database := some value }
  | "--config" => some { invocation with config := some value }
  | _ => none

/-- The arguments, sorted; `invocation` holds those before them. -/
def sort (invocation : Invocation) : List String → Option Invocation
  | [] => some invocation
  | "--compact" :: rest => sort { invocation with compact := true } rest
  -- everything after two dashes is a word
  | "--" :: words => some { invocation with words := invocation.words ++ words }
  | argument :: rest =>
    if argument.startsWith "--" then
      match splitValue argument, rest with
      | (name, some value), rest =>
        match setOption? invocation name value with
        | some invocation => sort invocation rest
        | none => none
      | (name, none), value :: rest =>
        match setOption? invocation name value with
        | some invocation => sort invocation rest
        | none => none
      | (_, none), [] => none
    else sort { invocation with words := invocation.words ++ [argument] } rest

/-- The command of the arguments, if they form one. -/
def command? (invocation : Invocation) : Option Command :=
  match invocation.words with
  | ["query", text] => some (.query text)
  | ["shell"] => some .shell
  | _ => none

/-- The settings, from the least to the most binding source. -/
def settings (invocation : Invocation) (environment : Environment) (disk : Disk) :
    Except StorageError Settings := do
  let base ← match invocation.config with
    | some file => Settings.load disk file
    | none => .ok Settings.default
  let dataPath := invocation.dataPath <|> environment.dataPath <|> base.dataPath
  let database := invocation.database <|> environment.database
  return { base with dataPath, defaultDatabase := database.getD base.defaultDatabase }

end Invocation

end PropertyGraph
