import RowPipeline.Settings
import RowPipeline.Traced

/-!
# The log

Events are logged at a level, under the name of the part that they come from. `Log.lines` gives the log of
a computation at the chosen level. Calls of validators and implementations are not logged.
-/

namespace RowPipeline

namespace LogLevel

/-- The name of a level in the log. -/
def label : LogLevel → String
  | critical => "CRITICAL"
  | error => "ERROR"
  | warning => "WARNING"
  | info => "INFO"
  | debug => "DEBUG"
  | unset => "NOTSET"

end LogLevel

namespace Log

/-- An entry of the log. -/
structure Entry where
  level : LogLevel
  source : String
  text : String

/-- The source of evaluations. -/
def evaluator : String := "plugincore.expressions.evaluator"

/-- The source of manifests. -/
def manifest : String := "plugincore.manifest"

/-- The source of runs. -/
def plugin : String := "plugincore.plugin"

/-- The text of a result. -/
def resultText? : Option Number → Option String
  | some a => a.text?
  | none => Value.null.text?

/-- The entry of an event; none for events that are not logged and for texts that cannot be written. -/
def entry? : Event → Option Entry
  | .evaluated expression field source result => (resultText? result).map fun text =>
    ⟨.debug, evaluator, "Evaluated `" ++ expression ++ "` for " ++ field.label ++ ": " ++ source ++
      " -> " ++ text⟩
  | .loaded target => some ⟨.debug, manifest, "Loaded plugin " ++ target⟩
  | .configAccepted config => (Value.ofRecord config).text?.map fun text =>
    ⟨.debug, plugin, "Validated config: " ++ text⟩
  | .outputFound parameter =>
    some ⟨.debug, plugin, "Evaluating output parameter `" ++ parameter.label ++ "`"⟩
  | .failed failure => failure.name?.map fun name =>
    ⟨.warning, plugin, "Plugin execution failed: " ++ name ++ ": " ++ failure.message⟩
  | _ => none

/-- The line of an entry. -/
def Entry.line (e : Entry) : String := e.level.label ++ " " ++ e.source ++ ": " ++ e.text

/-- The lines that events leave in the log at a level. -/
def lines (level : LogLevel) (events : List Event) : List String :=
  ((events.filterMap entry?).filter fun e => level.rank ≤ e.level.rank).map Entry.line

end Log

end RowPipeline
