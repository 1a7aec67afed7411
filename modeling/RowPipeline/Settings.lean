import RowPipeline.Failure

/-!
# Settings

The log level and the mapping mode of a process. In *snapshot* mode each run of a plugin has its own copy
of the mapping table, in *shared* mode the runs use up one table. Settings come from arguments or from
two environment variables.
-/

namespace RowPipeline

/-- A level of the log. -/
inductive LogLevel where
  | critical
  | error
  | warning
  | info
  | debug
  | unset
  deriving DecidableEq

namespace LogLevel

/-- The rank of a level; a message is shown if its rank is at least the rank of the chosen level. -/
def rank : LogLevel → Nat
  | critical => 50
  | error => 40
  | warning => 30
  | info => 20
  | debug => 10
  | unset => 0

/-- The names that settings accept, in capitals. -/
def names : List (String × LogLevel) := [
  ("CRITICAL", critical), ("FATAL", critical), ("ERROR", error), ("WARNING", warning),
  ("WARN", warning), ("INFO", info), ("DEBUG", debug), ("NOTSET", unset)]

/-- The level of a name in any case. -/
def ofName? (s : String) : Option LogLevel := names.lookup (Text.upper s)

end LogLevel

/-- How runs use the mapping table. -/
inductive MappingMode where
  | snapshot
  | shared
  deriving DecidableEq

namespace MappingMode

/-- The name of a mode. -/
def name : MappingMode → String
  | snapshot => "snapshot"
  | shared => "shared"

/-- The mode of a name. -/
def ofName? (s : String) : Option MappingMode :=
  if s = "snapshot" then some snapshot else if s = "shared" then some shared else none

end MappingMode

/-- The settings of a process; the level keeps the spelling it was given. -/
structure Settings where
  levelName : String := "WARNING"
  level : LogLevel := .warning
  mode : MappingMode := .snapshot
  deriving DecidableEq

namespace Settings

/-- Settings from a level name and a mode name; a bad mode is reported first. -/
def ofNames (levelName modeName : String) : Except Failure Settings :=
  match MappingMode.ofName? modeName with
  | none => .error (.raised .config ("Unsupported mapping mode `" ++ modeName ++
      "`. Expected one of: " ++ ", ".intercalate [MappingMode.name .snapshot, MappingMode.name .shared] ++
      "."))
  | some mode =>
    match LogLevel.ofName? levelName with
    | none => .error (.raised .config ("Unknown log level `" ++ levelName ++ "`."))
    | some level => .ok ⟨levelName, level, mode⟩

/-- The environment variable of the log level. -/
def levelVariable : String := "PLUGINCORE_LOG_LEVEL"

/-- The environment variable of the mapping mode. -/
def modeVariable : String := "PLUGINCORE_MAPPING_MODE"

/-- Settings from the environment. -/
def ofEnvironment (read : String → Option String) : Except Failure Settings :=
  ofNames (Text.upper ((read levelVariable).getD "WARNING"))
    (Text.lower ((read modeVariable).getD "snapshot"))

end Settings

end RowPipeline
