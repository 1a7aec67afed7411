import RowPipeline.Command.Arguments

/-!
# Help

What the commands and their options are for, laid out in lines.
-/

namespace RowPipeline.Help

/-- The lines about the option that asks for help. -/
def showLine (width : Nat) : String :=
  "  --help" ++ String.ofList (List.replicate (width - 6) ' ') ++ "  Show this message and exit."

/-- The help on the program. -/
def program (name : String) : List String := [
  "Usage: " ++ name ++ " [OPTIONS] COMMAND [ARGS]...",
  "",
  "  plugincore: arithmetic expressions and plugin execution.",
  "",
  "Options:",
  "  --log-level TEXT  Log level (overrides PLUGINCORE_LOG_LEVEL).",
  showLine 16,
  "",
  "Commands:",
  "  check  Report whether EXPRESSION is a valid arithmetic expression.",
  "  eval   Evaluate EXPRESSION against the given variables.",
  "  run    Execute the plugin described by MANIFEST_PATH and print its..."]

/-- The help on a command. -/
def command (name : String) : CommandName → List String
  | .eval => [
    "Usage: " ++ name ++ " eval [OPTIONS] EXPRESSION",
    "",
    "  Evaluate EXPRESSION against the given variables.",
    "",
    "Options:",
    "  --var TEXT    Variable as name=value. Values may themselves be expressions.",
    "  --field TEXT  Name of the field the expression is the value of.  [default:",
    "                result]",
    showLine 12]
  | .check => [
    "Usage: " ++ name ++ " check [OPTIONS] EXPRESSION",
    "",
    "  Report whether EXPRESSION is a valid arithmetic expression.",
    "",
    "Options:",
    showLine 6]
  | .run => [
    "Usage: " ++ name ++ " run [OPTIONS] MANIFEST_PATH",
    "",
    "  Execute the plugin described by MANIFEST_PATH and print its outputs.",
    "",
    "Options:",
    showLine 6]

end RowPipeline.Help
