import RowPipeline.Text.Blank
import RowPipeline.Value

/-!
# Command arguments

A command line names a command among its arguments: options of all commands come before its name, its own
options and operands after it. An option has its value behind an equals sign or as the next argument; two
hyphens end the options. `Invocation.ofArguments` gives none for a line that is not well-formed.
-/

namespace RowPipeline

/-! ### Scanning -/

/-- The options and operands of a list of arguments. -/
structure Scan where
  options : List (String × String) := []
  /-- Whether help is asked for. -/
  help : Bool := false
  operands : List String := []

namespace Scan

/-- The option that asks for help. -/
def helpOption : String := "--help"

/-- The parts of an argument around its first equals sign. -/
def splitEquals (arg : String) : String × Option String :=
  let cs := arg.toList
  match cs.dropWhile (· != '=') with
  | [] => (arg, none)
  | _ :: rest => (String.ofList (cs.takeWhile (· != '=')), some (String.ofList rest))

/-- Whether an argument is an option; a lone hyphen is none. -/
def isOption (arg : String) : Bool := arg.toList.head? == some '-' && arg != "-"

/-- The scan with another option in front. -/
def withOption (name value : String) (s : Scan) : Scan := { s with options := (name, value) :: s.options }

/-- The scan with another operand in front. -/
def withOperand (arg : String) (s : Scan) : Scan := { s with operands := arg :: s.operands }

/-- Scans arguments for the options `names`. If `mixed` holds, options may stand behind operands;
otherwise the first operand ends the options. -/
def ofArguments? (names : List String) (mixed : Bool) : List String → Option Scan
  | [] => some {}
  | arg :: rest =>
    if arg = "--" then some { operands := rest }
    else if isOption arg then
      match splitEquals arg with
      | (name, none) =>
        if name = helpOption then (ofArguments? names mixed rest).map fun s => { s with help := true }
        else if names.contains name then match rest with
          | value :: rest => (ofArguments? names mixed rest).map (withOption name value)
          | [] => none
        else none
      | (name, some value) =>
        if names.contains name then (ofArguments? names mixed rest).map (withOption name value) else none
    else if mixed then (ofArguments? names mixed rest).map (withOperand arg)
    else some { operands := arg :: rest }

/-- The last value of an option. -/
def last? (s : Scan) (name : String) : Option String :=
  (s.options.reverse.find? fun option => option.1 == name).map Prod.snd

/-- The values of an option. -/
def all (s : Scan) (name : String) : List String :=
  (s.options.filter fun option => option.1 == name).map Prod.snd

end Scan

/-! ### Commands -/

/-- What a command line can ask for. -/
inductive Command where
  /-- Evaluate an expression, as the value of a field, with variables. -/
  | eval (expression : String) (given : Record) (field : String)
  /-- Check whether a text is an expression. -/
  | check (expression : String)
  /-- Execute a manifest. -/
  | run (path : String)

/-- The name of a command. -/
inductive CommandName where
  | eval
  | check
  | run
  deriving DecidableEq

namespace CommandName

/-- The command of a name. -/
def ofText? (s : String) : Option CommandName :=
  if s = "eval" then some eval else if s = "check" then some check else if s = "run" then some run else none

/-- The options of a command. -/
def options : CommandName → List String
  | eval => ["--var", "--field"]
  | check => []
  | run => []

end CommandName

namespace Command

/-- A variable and its value around an equals sign; the name is not blank. -/
def readVariable? (s : String) : Option (Key × Value) :=
  match Scan.splitEquals s with
  | (_, none) => none
  | (name, some value) =>
    let name := Text.trim name.toList
    if name.isEmpty then none else some (.text (String.ofList name), .text value)

/-- The command of a name and a scan; none if operands are missing or left over. -/
def ofScan? (name : CommandName) (s : Scan) : Option Command :=
  match name, s.operands with
  | .eval, [expression] => do
    let given ← (s.all "--var").mapM readVariable?
    return eval expression (.ofList given) ((s.last? "--field").getD "result")
  | .check, [expression] => some (check expression)
  | .run, [path] => some (run path)
  | _, _ => none

end Command

/-! ### Command lines -/

/-- What a command line asks for before the arguments of the command are read. -/
inductive Invocation where
  | help
  | command (level : Option String) (name : CommandName) (arguments : List String)

namespace Invocation

/-- The option for the level of the log. -/
def levelOption : String := "--log-level"

/-- Reads a command line up to the name of the command. -/
def ofArguments? (args : List String) : Option Invocation := do
  let scan ← Scan.ofArguments? [levelOption] false args
  if scan.help then return help
  match scan.operands with
  | [] => none
  | name :: rest => return command (scan.last? levelOption) (← CommandName.ofText? name) rest

end Invocation

end RowPipeline
