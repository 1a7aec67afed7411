import RowPipeline.Location
import RowPipeline.Registry
import RowPipeline.Yaml.Block

/-!
# Manifests

A manifest names a plugin and gives the rows, the config, the mapping table and the metadata to run it
with. It is read from a value that keeps the manifest schema, or from a file. Executing a manifest finds
the plugin, makes an instance and executes it; in shared mode that uses up the table of the manifest.
-/

namespace RowPipeline

/-- A description of a run. -/
structure Manifest where
  plugin : String
  inputs : List Record
  config : Record := ∅
  mapping : Mapping := ∅
  /-- The metadata as it is written; absent if there is none. -/
  metadata : Value := .null
  /-- The folder of the file that the manifest was read from. -/
  base : Option String := none

namespace Manifest

/-! ### The schema -/

/-- A dictionary with text keys. -/
def entries (es : List (String × Value)) : Value := .dict (es.map fun (k, v) => (.text k, v))

/-- A list of texts. -/
def texts (ss : List String) : Value := .list (ss.map Value.text)

/-- The schema of one type. -/
def ofType (name : String) : Value := entries [("type", .text name)]

/-- The types of parts that may be left empty. -/
def objectOrNull : Value := texts ["object", "null"]

/-- The schema of an aggregation. -/
def aggregationSchema : Value := entries [("enum", texts ["sum", "avg", "none", "copy"])]

/-- The schema of an aggregation method. -/
def methodSchema : Value := entries [
  ("type", .text "object"),
  ("properties", entries [("time", aggregationSchema), ("component", aggregationSchema)]),
  ("additionalProperties", .bool false)]

/-- The schema of one parameter. -/
def parameterSchema : Value := entries [
  ("type", .text "object"),
  ("properties", entries [
    ("description", ofType "string"),
    ("unit", ofType "string"),
    ("aggregation-method", methodSchema)])]

/-- The schema of parameters. -/
def parametersSchema : Value := entries [
  ("type", objectOrNull), ("additionalProperties", parameterSchema)]

/-- The reference to the schema of parameters. -/
def parametersReference : Value := entries [("$ref", .text "#/$defs/parameters")]

/-- The schema of the metadata. -/
def metadataSchema : Value := entries [
  ("type", objectOrNull),
  ("properties", entries [("inputs", parametersReference), ("outputs", parametersReference)]),
  ("additionalProperties", .bool false)]

/-- The notation of the pattern of plugin references. -/
def referencePattern : String := "^[A-Za-z_][A-Za-z0-9_.]*:[A-Za-z_][A-Za-z0-9_]*$"

/-- The schema of a plugin reference. -/
def pluginSchema : Value := entries [("type", .text "string"), ("pattern", .text referencePattern)]

/-- The schema of the config. -/
def configSchema : Value := entries [("type", objectOrNull)]

/-- The schema of the mapping table. -/
def mappingSchema : Value := entries [("type", objectOrNull), ("additionalProperties", ofType "string")]

/-- The schema of the rows. -/
def inputsSchema : Value := entries [("type", .text "array"), ("items", ofType "object")]

/-- The schema of the parts of a manifest. -/
def partSchemas : Value := entries [
  ("plugin", pluginSchema),
  ("config", configSchema),
  ("mapping", mappingSchema),
  ("parameter-metadata", metadataSchema),
  ("inputs", inputsSchema)]

/-- The entries of the manifest schema. -/
def schemaEntries : List (Key × Value) := [
  ("type", .text "object"),
  ("required", texts ["plugin", "inputs"]),
  ("additionalProperties", .bool false),
  ("properties", partSchemas),
  ("$defs", entries [("parameters", parametersSchema)])]

/-- The schema that a manifest keeps. -/
def schema : SchemaDocument := (SchemaDocument.ofEntries? schemaEntries).getD ⟨.nothing, []⟩

/-! ### Reading -/

/-- The value of an entry; absent if there is none. -/
def part (es : List (Key × Value)) (name : String) : Value := (Entries.get? (.text name) es).getD .null

/-- The record of a dictionary. -/
def recordOf (v : Value) : Except Failure Record := v.toRecord?.elim (.error .wrongType) .ok

/-- The record of a dictionary that may be absent. -/
def recordOrEmpty (v : Value) : Except Failure Record := if v.isNull then .ok ∅ else recordOf v

/-- The parts of a manifest that keeps the schema. -/
def ofParts (es : List (Key × Value)) (base : Option String) : Except Failure Manifest := do
  match part es "plugin", part es "inputs" with
  | .text plugin, .list rows => return {
      plugin
      inputs := ← rows.mapM recordOf
      config := ← recordOrEmpty (part es "config")
      mapping := .ofValue (part es "mapping")
      metadata := part es "parameter-metadata"
      base }
  | _, _ => .error .wrongType

/-- Reads a manifest. -/
def ofValue (v : Value) (base : Option String := none) : Except Failure Manifest := do
  match ← (Checker.schema schema).check v none .manifestValidation with
  | .dict es => ofParts es base
  | _ => .error .wrongType

/-- Reads a manifest from the file at a path. -/
def load (path : String) (lookUp : String → FileEntry) : Except Failure Manifest := do
  let location := Location.normalize path
  match (lookUp location).read location with
  | .error why => .error (.raised .readFile ("Failed to read manifest `" ++ location ++ "`: " ++ why))
  | .ok content =>
    match Yaml.read content with
    | .ok v => ofValue v (some (Location.parent location))
    | .error .numeralTooLong => .error .numeralTooLong
    | .error .malformed => .error (.raised .cliSourceFile
        ("Manifest `" ++ location ++ "` is not valid YAML"))

/-! ### Execution -/

/-- An instance of the plugin. -/
def create (m : Manifest) (f : Factory) : Except Failure Instance :=
  Instance.create f.descriptor f.settings (.ofRecord m.config) m.metadata m.mapping

/-- Executes a manifest; it is given back with its table as the run leaves it. -/
def execute (m : Manifest) (r : Registry) (settings : Option Settings) (default : Settings) :
    Traced (List Record) × Manifest :=
  let made : Traced Instance := do
    let f ← r.load m.plugin settings default
    m.create f
  match made.outcome with
  | .error failure => (⟨.error failure, made.events⟩, m)
  | .ok i =>
    let (result, after) := i.execute m.inputs
    (⟨result.outcome, made.events ++ result.events⟩, { m with mapping := after.mapping })

end Manifest

end RowPipeline
