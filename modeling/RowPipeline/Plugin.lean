import RowPipeline.Mapping
import RowPipeline.Metadata
import RowPipeline.Settings
import RowPipeline.Validation.Validator

/-!
# Plugins

A plugin turns rows into rows. Its descriptor holds the implementation, validators for the config and the
rows, the config fields that may hold expressions, and metadata; an instance binds a descriptor to a
config and a mapping table. `Descriptor.run` is one run: the config is mapped and evaluated, rows are
evaluated, validated and given their internal names, the implementation is called, and its rows are
evaluated, renamed and laid over those it was called with.

A run uses up the entries of the table that the config refers to. An instance in snapshot mode gives every
run a copy of its table; in shared mode the runs work on one table, which is the table of the instance
after each run.
-/

namespace RowPipeline

/-! ### Implementations -/

/-- What an implementation gets. The config holds the table under the name `mapping`. -/
structure Call where
  rows : List Record
  config : Record
  mapping : Mapping

/-- What an implementation answers, and the rows and the table that it got as it leaves them. It may change
both in place: the rows that the run goes on with are those of `given`, and so with the table. -/
structure Reply where
  rows : Except Failure (List Record)
  given : List Record
  mapping : Mapping

/-- The work of a plugin. -/
abbrev Implementation := Call → Reply

/-- What is known of a plugin. -/
structure Descriptor where
  implementation : Implementation
  configValidator : Validator := .passThrough
  rowValidator : Validator := .passThrough
  /-- The config fields that may hold expressions; without a list nothing is evaluated. -/
  allow : Option (List Key) := none
  metadata : Metadata := {}

/-- The outcome of a run and the table after it. -/
structure Run where
  result : Traced (List Record)
  mapping : Mapping

namespace Descriptor

/-- Whether expressions are evaluated. -/
def evaluates (d : Descriptor) : Bool := d.allow.isSome

/-! ### Declaration -/

/-- Declares a plugin. The first fault is reported: a missing implementation, then the validator of the
config, the one of the rows, and the metadata. -/
def declare (implementation : Option Implementation) (onConfig onRow : ValidatorSource)
    (allow : Option (List Key)) (metadata : Value) : Except Failure Descriptor := do
  match implementation with
  | none => .error (.raised .missingPluginMethod
      "Plugin implementation must be a callable `(inputs, config) -> outputs`.")
  | some implementation =>
    let configValidator ← Validator.ofSource onConfig
    let rowValidator ← Validator.ofSource onRow
    let metadata ← Metadata.ofValue metadata
    return { implementation, configValidator, rowValidator, allow, metadata }

/-! ### Before the call -/

/-- The entries with each value changed by a function that may fail. -/
def mapEntries (f : Value → Except Failure Value) : List (Key × Value) → Except Failure (List (Key × Value))
  | [] => .ok []
  | (k, v) :: rest => do return (k, ← f v) :: (← mapEntries f rest)

/-- The record with each value changed by a function that may fail. -/
def mapFields (f : Value → Except Failure Value) (r : Record) : Except Failure Record := do
  return .ofList (← mapEntries f r.entries)

/-- Evaluates the rows, and the config against each of them. The config evaluated against the last row
comes with the rows. -/
def evaluateRows (config : Record) (allow : List Key) (last : Option Record) :
    List Record → Traced (List Record × Option Record)
  | [] => pure ([], last)
  | row :: rest => do
    let row ← row.evaluate
    let evaluated ← config.evaluateConfig row allow
    let (rest, last) ← evaluateRows config allow (some evaluated) rest
    return (row :: rest, last)

/-- The config and the rows, evaluated if the plugin evaluates. -/
def evaluateAll (d : Descriptor) (config : Record) (rows : List Record) :
    Traced (Record × List Record × Option Record) :=
  match d.allow with
  | none => pure (config, rows, none)
  | some allow => do
    let config ← mapFields Expression.evaluateSimple config
    let (rows, evaluated) ← evaluateRows config allow none rows
    return (config, rows, evaluated)

/-- The config as rows see it: with the names that its expressions refer to, if the plugin evaluates. -/
def configForRows (d : Descriptor) (config : Record) : Except Failure Record := do
  let plain ← if d.evaluates then mapFields Expression.extractVariable config else .ok ∅
  return if plain.isEmpty then config else plain

/-- Validates rows, numbered from `index`, and adds their internal names. -/
def acceptRows (validator : Validator) (config : Record) (mapping : Mapping) (index : Nat) :
    List Record → Traced (List Record)
  | [] => pure []
  | row :: rest => do
    let accepted ← validator.acceptRow row config index
    let rest ← acceptRows validator config mapping (index + 1) rest
    return row.merge (mapping.mapInput accepted) :: rest

/-- The config that an implementation gets. -/
def configForCall (config : Record) (evaluated : Option Record) (mapping : Mapping) : Record :=
  (config.merge (evaluated.getD ∅)).insert (.text "mapping") mapping.toValue

/-- What the implementation is called with; `config` is mapped already. -/
def prepare (d : Descriptor) (config : Record) (mapping : Mapping) (rows : List Record) : Traced Call := do
  let (config, rows, evaluated) ← d.evaluateAll config rows
  let config ← d.configValidator.acceptConfig config
  Traced.emit (.configAccepted config)
  let rowConfig ← d.configForRows config
  let rows ← acceptRows d.rowValidator rowConfig mapping 0 rows
  return { rows, config := configForCall config evaluated mapping, mapping }

/-! ### After the call -/

/-- The failure of an implementation that answers with another number of rows. -/
def miscounted (given expected : Nat) : Failure :=
  .raised .processExecution ("Plugin returned " ++ toString given ++ " row(s) for " ++
    toString expected ++ " input row(s).")

/-- The first field of the first answer row that its input row does not have. -/
def outputParameter? (rows outputs : List Record) : Option Key :=
  match rows, outputs with
  | row :: _, output :: _ =>
    match output.keys.find? fun k => !row.contains k with
    | some .null => none
    | found => found
  | _, _ => none

/-- Evaluates the output parameter in every row. -/
def evaluateOutputs (parameter : Key) : List Record → Traced (List Record)
  | [] => pure []
  | output :: rest => do
    let output ← Record.evaluateOutput parameter output
    return output :: (← evaluateOutputs parameter rest)

/-- The rows of a run from those of the call, as the implementation leaves them, and those it answered. -/
def finish (d : Descriptor) (mapping : Mapping) (rows outputs : List Record) : Traced (List Record) := do
  if outputs.length ≠ rows.length then Traced.fail (miscounted outputs.length rows.length)
  else
    let outputs ← match if d.evaluates then outputParameter? rows outputs else none with
      | none => pure outputs
      | some parameter => do
        Traced.emit (.outputFound parameter)
        evaluateOutputs parameter outputs
    return List.zipWith (fun row output => (mapping.removeMapped row).merge (mapping.mapOutput output))
      rows outputs

/-! ### Runs -/

/-- A run with a mapped config. -/
def runMapped (d : Descriptor) (config : Record) (mapping : Mapping) (rows : List Record) : Run :=
  let prepared := d.prepare config mapping rows
  let left := match prepared.outcome with
    | .ok call => (d.implementation call).mapping
    | .error _ => mapping
  let result := do
    let call ← prepared
    Traced.emit (.called call.rows call.config)
    let outputs ← Traced.lift (d.implementation call).rows
    d.finish left (d.implementation call).given outputs
  ⟨result, left⟩

/-- A run. -/
def run (d : Descriptor) (config : Record) (mapping : Mapping) (rows : List Record) : Run :=
  match mapping.mapRecord config with
  | .ok (config, mapping) => d.runMapped config mapping rows
  | .error failure => ⟨Traced.fail failure, mapping⟩

end Descriptor

/-! ### Instances -/

/-- Where a plugin is in its life. -/
inductive PluginState where
  | declared
  | instantiated
  | executing
  | completed
  | failed
  deriving DecidableEq

namespace PluginState

/-- The name of a state. -/
def name : PluginState → String
  | declared => "declared"
  | instantiated => "instantiated"
  | executing => "executing"
  | completed => "completed"
  | failed => "failed"

end PluginState

/-- A plugin bound to a config and a table. -/
structure Instance where
  descriptor : Descriptor
  config : Record
  metadata : Metadata
  mode : MappingMode
  mapping : Mapping
  state : PluginState := .instantiated

namespace Instance

/-- Binds a plugin. A config that is absent is empty, and the caller's metadata goes over the declared. -/
def create (descriptor : Descriptor) (settings : Settings) (config metadata : Value) (mapping : Mapping) :
    Except Failure Instance := do
  let config : Record ← match config with
    | .null => .ok ∅
    | .dict es => .ok (.ofList es)
    | v => .error (.raised .config ("Plugin config must be a mapping, got `" ++ v.typeName ++ "`."))
  let caller ← Metadata.ofValue metadata
  return { descriptor, config, metadata := descriptor.metadata.merge caller, mode := settings.mode, mapping }

/-- The events of a run, and its failure as the last one. -/
def reportFailure {α : Type} (result : Traced α) : Traced α :=
  match result.outcome with
  | .ok _ => result
  | .error failure => ⟨result.outcome, result.events ++ [.failed failure]⟩

/-- Executes an instance on rows. -/
def execute (i : Instance) (rows : List Record) : Traced (List Record) × Instance :=
  let run := i.descriptor.run i.config i.mapping rows
  (reportFailure run.result, { i with
    state := if run.result.outcome.isOk then .completed else .failed
    mapping := if i.mode = .shared then run.mapping else i.mapping })

/-- Executes an instance several times. -/
def executeAll (i : Instance) : List (List Record) → List (Traced (List Record) × Instance)
  | [] => []
  | rows :: rest =>
    let (result, next) := i.execute rows
    (result, next) :: next.executeAll rest

end Instance

end RowPipeline
