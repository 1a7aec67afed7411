import RowPipeline.Command.Arguments
import RowPipeline.Command.Help
import RowPipeline.Command.Log
import RowPipeline.Manifest

/-!
# Commands

The command line evaluates an expression, checks whether a text is one, or executes a manifest. A line that
is not well-formed is a wrong usage. An error of the catalogue is shown as a line of its own and ends the
command with status 1; every other failure escapes.

The settings come from the environment, with the level of the log from the line if it is given there, and
are read after the name of the command and before its arguments.
-/

namespace RowPipeline

/-! ### Output -/

/-- The color of a line. -/
inductive Color where
  | red
  | green
  | yellow
  deriving DecidableEq

/-- The code that terminals know a color by. -/
def Color.code : Color → Nat
  | red => 31
  | green => 32
  | yellow => 33

/-- A line of output. -/
structure OutputLine where
  text : String
  color : Option Color := none

/-- A line with the marks of its color, or plain. -/
def OutputLine.render (colored : Bool) (l : OutputLine) : String :=
  match l.color with
  | some c =>
    if colored then "\x1b[" ++ toString c.code ++ "m" ++ l.text ++ "\x1b[0m\n" else l.text ++ "\n"
  | none => l.text ++ "\n"

/-- How a command ends. -/
inductive Outcome where
  /-- The command line is not well-formed. -/
  | misused
  /-- A failure that is no error of the catalogue. -/
  | escaped (failure : Failure)
  /-- Lines of output and of errors, and a status. -/
  | lines (status : Nat) (output errors : List OutputLine)
  /-- A document of output, and lines of errors. -/
  | document (output : Value) (errors : List OutputLine)

namespace Command

/-- What the commands work in: the plugins, the variables of the environment, and the files. -/
structure Surroundings where
  registry : Registry
  environment : String → Option String
  file : String → FileEntry

/-- The end of a command that fails. -/
def fail (log : List OutputLine) (failure : Failure) : Outcome :=
  match failure.kind? with
  | some kind => .lines 1 [] (log ++ [{ text := kind.name ++ ": " ++ failure.message, color := some .red }])
  | none => .escaped failure

/-- The log of events as lines of errors. -/
def logOf (level : LogLevel) (events : List Event) : List OutputLine :=
  (Log.lines level events).map fun text => { text }

/-! ### The commands -/

/-- Evaluates an expression with variables. -/
def runEval (level : LogLevel) (expression : String) (given : Record) (field : String) : Outcome :=
  let result := Expression.evaluate given [] (.text field) (.text expression)
  let log := logOf level result.events
  match result.outcome with
  | .error failure => fail log failure
  | .ok v =>
    match if v.isNull then some "NaN" else v.text? with
    | some text => .lines 0 [{ text }] log
    | none => .escaped .numeralTooLong

/-- The names of an expression, each once. -/
def namesOf (expression : String) : Except Failure (List String) := do
  return ((← Expression.tryParse (Expression.body expression)).elim [] fun tree =>
    tree.names.map Prod.fst).eraseDups

/-- The lines about a text that is an expression. -/
def describe (expression : String) (names : List String) : List OutputLine :=
  [{ text := "`" ++ expression ++ "` is a valid arithmetic expression.", color := some .green }] ++
    (if Expression.hasMarker expression then []
      else [{ text := "  (no `=` marker: it will not be evaluated)", color := some .yellow }]) ++
    (if names.isEmpty then [] else [{ text := "  variables: " ++ ", ".intercalate names }])

/-- Whether a text is an expression that `check` accepts. -/
def isAccepted (expression : String) : Except Failure Bool := do
  return (← Expression.isExpression expression) || Expression.isClosed expression

/-- Checks whether a text is an expression. -/
def runCheck (expression : String) : Outcome :=
  let report : Except Failure Outcome := do
    if ← isAccepted expression then
      return .lines 0 (describe expression (← namesOf expression)) []
    else return .lines 1 [] [{
      text := "`" ++ expression ++ "` is not a valid arithmetic expression.", color := some .red }]
  match report with
  | .ok outcome => outcome
  | .error failure => .escaped failure

/-- Executes the manifest in a file; the file has to be there. -/
def runManifest (around : Surroundings) (settings : Settings) (path : String) : Outcome :=
  match around.file (Location.normalize path) with
  | .text _ =>
    match Manifest.load path around.file with
    | .error failure => fail [] failure
    | .ok m =>
      let (result, _) := m.execute around.registry (some settings) settings
      let log := logOf settings.level result.events
      match result.outcome with
      | .error failure => fail log failure
      | .ok rows =>
        let output := Value.dict [(.text "outputs", .list (rows.map Value.ofRecord))]
        if output.text?.isSome then .document output log else .escaped .numeralTooLong
  | _ => .misused

/-- Runs a command. -/
def execute (around : Surroundings) (settings : Settings) : Command → Outcome
  | eval expression given field => runEval settings.level expression given field
  | check expression => runCheck expression
  | run path => runManifest around settings path

/-! ### The command line -/

/-- The settings of the environment, with another level if that is given and not empty. -/
def settingsOf (around : Surroundings) (level : Option String) : Except Failure Settings := do
  let settings ← Settings.ofEnvironment around.environment
  match level with
  | none | some "" => return settings
  | some level => Settings.ofNames (Text.upper level) settings.mode.name

/-- The end of a command line that only asks for help. -/
def showHelp (lines : List String) : Outcome := .lines 0 (lines.map fun text => { text }) []

/-- Runs a command line; `program` is the name that it was called by. -/
def ofArguments (around : Surroundings) (program : String) (args : List String) : Outcome :=
  match Invocation.ofArguments? args with
  | none => .misused
  | some .help => showHelp (Help.program program)
  | some (.command level name rest) =>
    match settingsOf around level with
    | .error failure => .lines 1 [] [{ text := "Error: " ++ failure.message, color := some .red }]
    | .ok settings =>
      match Scan.ofArguments? name.options true rest with
      | none => .misused
      | some scan =>
        if scan.help then showHelp (Help.command program name)
        else match Command.ofScan? name scan with
          | none => .misused
          | some command => command.execute around settings

/-- The file that a command line reads, if it is well-formed so far. -/
def wantedFile? (args : List String) : Option String :=
  match Invocation.ofArguments? args with
  | some (.command _ .run rest) => ((Scan.ofArguments? [] true rest).map Scan.operands).bind List.head?
  | _ => none

end Command

end RowPipeline
