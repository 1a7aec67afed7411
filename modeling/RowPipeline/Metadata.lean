import RowPipeline.Failure

/-!
# Parameter metadata

Plugins declare their input and output parameters with a description, a unit and an aggregation method
for time and for components. A caller's metadata is laid over the declared one: inputs parameter by
parameter, outputs as a whole where the caller declares them. Undeclared outputs differ from an empty
declaration.

`ofValue` and `toValue` read and write the external format.
-/

namespace RowPipeline

/-! ### Aggregation -/

/-- How a parameter is aggregated over a dimension. -/
inductive Aggregation where
  | sum
  | avg
  | none
  | copy
  deriving DecidableEq

namespace Aggregation

/-- Every aggregation, in the order that messages list them. -/
def all : List Aggregation := [sum, avg, none, copy]

/-- The external name. -/
def name : Aggregation → String
  | sum => "sum"
  | avg => "avg"
  | none => "none"
  | copy => "copy"

/-- The aggregation of a value. -/
def ofValue (v : Value) (parameter : String) : Except Failure Aggregation := do
  let found := match v with
    | .text s => all.find? (·.name == s)
    | _ => Option.none
  match found with
  | some a => return a
  | Option.none =>
    let text ← v.print
    .error (.raised .invalidAggregationMethod ("Aggregation method `" ++ text ++ "` of `" ++ parameter ++
      "` is not supported. Please use one of: " ++ ", ".intercalate (all.map name) ++ "."))

end Aggregation

/-- The aggregation over time and over components. -/
structure AggregationMethod where
  time : Aggregation := .sum
  component : Aggregation := .sum
  deriving DecidableEq

namespace AggregationMethod

/-- The value of an entry, or a default. -/
def entryOr (es : List (Key × Value)) (name : String) (default : Value) : Value :=
  (Entries.get? (.text name) es).getD default

/-- Reads a method; a missing dimension is summed. -/
def ofEntries (es : List (Key × Value)) (parameter : String) : Except Failure AggregationMethod := do
  let time ← Aggregation.ofValue (entryOr es "time" (.text "sum")) parameter
  let component ← Aggregation.ofValue (entryOr es "component" (.text "sum")) parameter
  return ⟨time, component⟩

/-- The external form. -/
def toValue (m : AggregationMethod) : Value :=
  .dict [(.text "time", .text m.time.name), (.text "component", .text m.component.name)]

end AggregationMethod

/-! ### Parameters -/

/-- What is known of one parameter. -/
structure ParameterMetadata where
  description : Value := .text ""
  unit : Value := .text ""
  aggregation : AggregationMethod := {}

/-- The entries of a dictionary, none for the values that count as empty. -/
def Value.entriesOrEmpty (v : Value) : Except Failure (List (Key × Value)) :=
  if v.isBlank then .ok [] else match v with
    | .dict es => .ok es
    | _ => .error .notDictionary

namespace ParameterMetadata

/-- Reads a parameter. -/
def ofValue (v : Value) (parameter : String) : Except Failure ParameterMetadata := do
  let es ← v.entriesOrEmpty
  let method ← (AggregationMethod.entryOr es "aggregation-method" .null).entriesOrEmpty
  return {
    description := AggregationMethod.entryOr es "description" (.text "")
    unit := AggregationMethod.entryOr es "unit" (.text "")
    aggregation := ← AggregationMethod.ofEntries method parameter }

/-- The external form. -/
def toValue (p : ParameterMetadata) : Value :=
  .dict [(.text "description", p.description), (.text "unit", p.unit),
    (.text "aggregation-method", p.aggregation.toValue)]

end ParameterMetadata

/-- Parameters under their names. -/
abbrev Parameters := Fields Key ParameterMetadata

namespace Parameters

/-- Reads entries one after the other. -/
def ofEntries : List (Key × Value) → Except Failure (List (Key × ParameterMetadata))
  | [] => .ok []
  | (name, v) :: rest => do
    let p ← ParameterMetadata.ofValue v (name.text?.getD "")
    let rest ← ofEntries rest
    return (name, p) :: rest

/-- Reads parameters. -/
def ofValue (v : Value) : Except Failure Parameters := do
  return .ofList (← ofEntries (← v.entriesOrEmpty))

/-- The external form. -/
def toValue (ps : Parameters) : Value := .dict (ps.entries.map fun (name, p) => (name, p.toValue))

end Parameters

/-! ### Plugins -/

/-- The parameters of a plugin. Without a declaration `outputs` is none. -/
structure Metadata where
  inputs : Parameters := ∅
  outputs : Option Parameters := none

namespace Metadata

/-- The external format of parameter metadata, read. -/
def ofValue (v : Value) : Except Failure Metadata := do
  let es ← v.entriesOrEmpty
  let outputs := AggregationMethod.entryOr es "outputs" .null
  let inputs ← Parameters.ofValue (AggregationMethod.entryOr es "inputs" .null)
  if outputs.isNull then return ⟨inputs, none⟩
  else return ⟨inputs, some (← Parameters.ofValue outputs)⟩

/-- The external entries. -/
def toEntries (m : Metadata) : List (Key × Value) :=
  (.text "inputs", m.inputs.toValue) ::
    m.outputs.elim [] fun outputs => [(.text "outputs", outputs.toValue)]

/-- The external form. -/
def toValue (m : Metadata) : Value := .dict m.toEntries

/-- Lays the metadata of a caller over declared metadata. -/
def merge (declared caller : Metadata) : Metadata :=
  ⟨declared.inputs.merge caller.inputs, caller.outputs.or declared.outputs⟩

/-- The external form of the metadata of an instance. -/
def describe (m : Metadata) : Value := .dict ((.text "kind", .text "execute") :: m.toEntries)

end Metadata

end RowPipeline
