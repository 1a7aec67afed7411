import RowPipeline.Expression.Token

/-!
# Failures

Everything that can go wrong is a `Failure`. The catalogue (`ErrorKind`) names the errors that callers
can look up by name and raise with a message of their own; the causes that this library detects while it
reads and computes expressions are constructors with their data, and `message` holds their wording.
The remaining constructors stand for faults of values themselves, which have no catalogue name.

Some kinds are special cases of others (`ErrorKind.parent?`): a missing or non-numeric variable is
invalid input, and a division by zero is an undefined operation.
-/

namespace RowPipeline

/-! ### The catalogue -/

/-- The errors of the catalogue. -/
inductive ErrorKind where
  | manifestValidation
  | inputValidation
  | config
  | wrongArithmeticExpression
  | missingVariable
  | nonNumericVariable
  | zeroDivisionArithmeticOperation
  | divisionByZero
  | invalidGrouping
  | writeFile
  | parseCliParams
  | cliSourceFile
  | cliTargetFile
  | invalidAggregationMethod
  | invalidDirectory
  | missingAggregationParam
  | missingCliFlags
  | missingManifestDependencies
  | missingPluginMethod
  | missingPluginPath
  | missingPluginDependencies
  | pluginInitialization
  | invalidExhaustPlugin
  | wrongArithmeticOperation
  | missingInputData
  | processExecution
  | regexMismatch
  | fetchingFile
  | readFile
  | missingCsvColumn
  | queryDataNotFound
  | invalidDateInInput
  | invalidPadding
  | invalidInput
  | exhaustOutputArg
  | csvParse
  | apiRequest
  | authorization
  deriving DecidableEq

namespace ErrorKind

/-- Every kind, in catalogue order. -/
def all : List ErrorKind := [
  manifestValidation, inputValidation, config, wrongArithmeticExpression, missingVariable,
  nonNumericVariable, zeroDivisionArithmeticOperation, divisionByZero, invalidGrouping, writeFile,
  parseCliParams, cliSourceFile, cliTargetFile, invalidAggregationMethod, invalidDirectory,
  missingAggregationParam, missingCliFlags, missingManifestDependencies, missingPluginMethod,
  missingPluginPath, missingPluginDependencies, pluginInitialization, invalidExhaustPlugin,
  wrongArithmeticOperation, missingInputData, processExecution, regexMismatch, fetchingFile, readFile,
  missingCsvColumn, queryDataNotFound, invalidDateInInput, invalidPadding, invalidInput,
  exhaustOutputArg, csvParse, apiRequest, authorization]

/-- The name a kind is looked up by. -/
def name : ErrorKind → String
  | manifestValidation => "ManifestValidationError"
  | inputValidation => "InputValidationError"
  | config => "ConfigError"
  | wrongArithmeticExpression => "WrongArithmeticExpressionError"
  | missingVariable => "MissingVariableError"
  | nonNumericVariable => "NonNumericVariableError"
  | zeroDivisionArithmeticOperation => "ZeroDivisionArithmeticOperationError"
  | divisionByZero => "DivisionByZeroError"
  | invalidGrouping => "InvalidGroupingError"
  | writeFile => "WriteFileError"
  | parseCliParams => "ParseCliParamsError"
  | cliSourceFile => "CliSourceFileError"
  | cliTargetFile => "CliTargetFileError"
  | invalidAggregationMethod => "InvalidAggregationMethodError"
  | invalidDirectory => "InvalidDirectoryError"
  | missingAggregationParam => "MissingAggregationParamError"
  | missingCliFlags => "MissingCliFlagsError"
  | missingManifestDependencies => "MissingManifestDependenciesError"
  | missingPluginMethod => "MissingPluginMethodError"
  | missingPluginPath => "MissingPluginPathError"
  | missingPluginDependencies => "MissingPluginDependenciesError"
  | pluginInitialization => "PluginInitializationError"
  | invalidExhaustPlugin => "InvalidExhaustPluginError"
  | wrongArithmeticOperation => "WrongArithmeticOperationError"
  | missingInputData => "MissingInputDataError"
  | processExecution => "ProcessExecutionError"
  | regexMismatch => "RegexMismatchError"
  | fetchingFile => "FetchingFileError"
  | readFile => "ReadFileError"
  | missingCsvColumn => "MissingCSVColumnError"
  | queryDataNotFound => "QueryDataNotFoundError"
  | invalidDateInInput => "InvalidDateInInputError"
  | invalidPadding => "InvalidPaddingError"
  | invalidInput => "InvalidInputError"
  | exhaustOutputArg => "ExhaustOutputArgError"
  | csvParse => "CSVParseError"
  | apiRequest => "APIRequestError"
  | authorization => "AuthorizationError"

/-- The kind of a name. -/
def ofName? (s : String) : Option ErrorKind := all.find? (·.name == s)

/-- The kind that a kind is a special case of. -/
def parent? : ErrorKind → Option ErrorKind
  | missingVariable => some inputValidation
  | nonNumericVariable => some inputValidation
  | divisionByZero => some zeroDivisionArithmeticOperation
  | _ => none

/-- The name of the most general kind, which is not in the catalogue. -/
def rootName : String := "PluginCoreError"

/-- The names from a kind up to the most general one. -/
def lineage (kind : ErrorKind) : List String :=
  match kind.parent? with
  | some parent => [kind.name, parent.name, rootName]
  | none => [kind.name, rootName]

end ErrorKind

/-! ### Causes -/

/-- What keeps an expression from having a value. -/
inductive ArithmeticError where
  | foreignCharacter (expression : String)
  | badShape (field : String)
  | circular (expression : String) (chain : List String)
  | missingVariable (name : String)
  | nonNumericVariable (name : String)
  | nonNumericOutput (parameter : String)
  | divisionByZero (source : String)
  deriving DecidableEq

namespace ArithmeticError

/-- The catalogue kind of a cause. -/
def kind : ArithmeticError → ErrorKind
  | foreignCharacter _ => .wrongArithmeticExpression
  | badShape _ => .wrongArithmeticExpression
  | circular _ _ => .wrongArithmeticExpression
  | missingVariable _ => .missingVariable
  | nonNumericVariable _ => .nonNumericVariable
  | nonNumericOutput _ => .nonNumericVariable
  | divisionByZero _ => .divisionByZero

/-- The wording of a cause. -/
def message : ArithmeticError → String
  | foreignCharacter expression =>
    "The operator in `" ++ expression ++
      "` should be one of these arithmetic operators: *, +, - or /."
  | badShape field =>
    "The `" ++ field ++ "` contains an invalid arithmetic expression. It should start " ++
      "with `=` and include the symbols `*`, `+`, `-` and `/`."
  | circular expression chain =>
    "The expression `" ++ expression ++ "` has a circular reference: " ++
      " -> ".intercalate chain ++ "."
  | missingVariable name =>
    "`" ++ name ++ "` is missing from the input array, or has nullish value."
  | nonNumericVariable name =>
    "The value of the `" ++ name ++ "` parameter in the input array is not a number."
  | nonNumericOutput parameter =>
    "The value of the `" ++ parameter ++ "` output parameter is not a number."
  | divisionByZero source =>
    "The input expression contains a division by zero: `" ++ source ++ "`."

end ArithmeticError

/-- What keeps a token list from being an expression. -/
inductive ParseError where
  | empty
  | operandExpected (finish : Token)
  | unexpected (token : Token)
  deriving DecidableEq

namespace ParseError

/-- The token an error is about. -/
def token : ParseError → Token
  | empty => ⟨.finish, 0⟩
  | operandExpected t => t
  | unexpected t => t

/-- The wording of an error. -/
def message (e : ParseError) : String :=
  let text := match e with
    | empty => "Empty expression"
    | operandExpected _ => "Expected operand after operator"
    | unexpected t => "Unexpected token '" ++ (t.lexeme.value.text?).getD "" ++ "'"
  text ++ " at position " ++ toString e.token.position

end ParseError

/-- Why something failed. -/
inductive Failure where
  | raised (kind : ErrorKind) (message : String)
  | arithmetic (cause : ArithmeticError)
  | lexical (character : Char) (position : Nat)
  | parse (error : ParseError)
  | numeralTooLong
  | unknownOperator (symbol : String)
  | signallingNumber
  | notClosed (expression : String)
  | overflow
  | wrongType
  | notDictionary
  | missingKey
  | unexpected (message : String)
  | invalidSchema
  | unresolvedReference (target : String)
  | noBranchLocation
  deriving DecidableEq

namespace Failure

/-- The catalogue kind of a failure, if it has one. -/
def kind? : Failure → Option ErrorKind
  | raised kind _ => some kind
  | arithmetic cause => some cause.kind
  | _ => none

/-- The name of a failure that has a message of this library. -/
def name? : Failure → Option String
  | lexical .. => some "LexerError"
  | parse _ => some "ParseError"
  | failure => failure.kind?.map ErrorKind.name

/-- The wording of a failure. -/
def message : Failure → String
  | raised _ message => message
  | arithmetic cause => cause.message
  | lexical character position =>
    "Unexpected character '" ++ character.toString ++ "' at position " ++ toString position
  | parse error => error.message
  | numeralTooLong => "a whole number has too many digits"
  | unknownOperator symbol => "unknown operator: " ++ symbol
  | signallingNumber => "a signalling number has no value"
  | notClosed expression => "closed numeric expression expected, got `" ++ expression ++ "`"
  | overflow => "a number is beyond the doubles"
  | wrongType => "a value has the wrong type for this operation"
  | notDictionary => "a dictionary was expected"
  | missingKey => "a key is missing"
  | unexpected message => message
  | invalidSchema => "the schema is not valid"
  | unresolvedReference target => "a schema refers to `" ++ target ++ "`, which is not defined"
  | noBranchLocation => "a branch without rules has no place in its schema"

end Failure

/-- The text of a value; a whole number of too many digits has none. -/
def Value.print (v : Value) : Except Failure String := v.text?.elim (.error .numeralTooLong) .ok

/-- The text of a value, a text in quotes. -/
def Value.printQuoted (v : Value) : Except Failure String :=
  v.quoted?.elim (.error .numeralTooLong) .ok

/-- The text of a number; a whole number of too many digits has none. -/
def Number.print (a : Number) : Except Failure String := a.text?.elim (.error .numeralTooLong) .ok

end RowPipeline
