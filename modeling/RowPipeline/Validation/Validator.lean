import RowPipeline.Record
import RowPipeline.Validation.Model
import RowPipeline.Validation.Schema.Finding
import RowPipeline.Validation.Schema.Notation

/-!
# Validators

A validator accepts a config or a row, possibly with changes, or rejects it. It is a checker, that is a
model or a schema, a function, or passes everything through. `Validator.ofSource` picks the kind once for
whatever a plugin declares, and a function that answers nothing accepts its argument as it is.

A checker reports all issues in one message, one to a line, with the number of the row.
-/

namespace RowPipeline

/-- A pair of functions that validate the config and the rows. -/
structure ValidatorFunction where
  onConfig : Record → Except Failure (Option Record)
  /-- Takes a row, the config and the number of the row. -/
  onRow : Record → Record → Nat → Except Failure (Option Record)

/-- A model or a schema. -/
inductive Checker where
  | model (model : Model)
  | schema (document : SchemaDocument)

/-- What may be declared as a validator. -/
inductive ValidatorSource where
  | model (model : Model)
  | function (function : ValidatorFunction)
  | value (v : Value)

/-- A validator. -/
inductive Validator where
  | passThrough
  | function (function : ValidatorFunction)
  | checker (checker : Checker)

namespace ValidatorSource

/-- The name of the type of what is declared. -/
def typeName : ValidatorSource → String
  | model _ => "model"
  | function _ => "function"
  | value v => v.typeName

/-- The checker of a model or of the notation of a schema. -/
def checker? : ValidatorSource → Except Failure (Option Checker)
  | model m => .ok (some (.model m))
  | value (.dict es) => match SchemaDocument.ofEntries? es with
    | some document => .ok (some (.schema document))
    | none => .error .invalidSchema
  | _ => .ok none

end ValidatorSource

namespace Checker

/-- The value as it is accepted, or its issues. -/
def read (v : Value) : Checker → Except Failure (Except (List Issue) Value)
  | model m => .ok (m.validate v)
  | schema document => do
    match ← document.issues v with
    | [] => return .ok v
    | issues => return .error issues

/-- The value as it is accepted; otherwise an error of the given kind that reports the issues. -/
def check (c : Checker) (v : Value) (index : Option Int) (kind : ErrorKind) : Except Failure Value := do
  match ← c.read v with
  | .ok v => return v
  | .error issues => .error (.raised kind (Issue.reportAll index issues))

/-- `check` on a record. -/
def checkRecord (c : Checker) (r : Record) (index : Option Int) : Except Failure Record := do
  match (← c.check (.ofRecord r) index .inputValidation).toRecord? with
  | some r => return r
  | none => .error .wrongType

end Checker

namespace Validator

/-- The validator of what is declared. -/
def ofSource (source : ValidatorSource) : Except Failure Validator := do
  match source with
  | .value .null => return passThrough
  | source =>
    match ← source.checker?, source with
    | some c, _ => return checker c
    | none, .function f => return function f
    | none, source => .error (.raised .pluginInitialization ("Unsupported validator of type `" ++
        source.typeName ++ "`. Expected a pydantic model, a TypeAdapter, a JSON Schema or a function."))

/-- Accepts or rejects a config. -/
def acceptConfig (config : Record) : Validator → Traced Record
  | passThrough => pure config
  | function f => do
    Traced.emit (.configChecked config)
    return (← Traced.lift (f.onConfig config)).getD config
  | checker c => Traced.lift (c.checkRecord config none)

/-- Accepts or rejects a row of a given number; `config` is the config as rows see it. -/
def acceptRow (row config : Record) (index : Nat) : Validator → Traced Record
  | passThrough => pure row
  | function f => do
    Traced.emit (.rowChecked row config index)
    return (← Traced.lift (f.onRow row config index)).getD row
  | checker c => Traced.lift (c.checkRecord row (some index))

end Validator

/-- Validates a value by a model or by the notation of a schema. -/
def validate (source : ValidatorSource) (v : Value) (index : Option Int) (kind : ErrorKind) :
    Except Failure Value := do
  match ← source.checker? with
  | some c => c.check v index kind
  | none => .error (.raised .pluginInitialization
      ("Cannot validate with `" ++ source.typeName ++ "`: not a schema."))

/-- The name of a kind of validator. -/
def Validator.kindName : Validator → String
  | passThrough => "PassThroughValidator"
  | function _ => "FunctionValidator"
  | checker (.model _) => "SchemaValidator"
  | checker (.schema _) => "JsonSchemaValidator"

/-- Validates a value by a validator; only checkers do. -/
def Validator.validate (v : Value) (index : Option Int) (kind : ErrorKind) :
    Validator → Except Failure Value
  | checker c => c.check v index kind
  | validator => .error (.raised .pluginInitialization
      ("Cannot validate with `" ++ validator.kindName ++ "`: not a schema."))

end RowPipeline
