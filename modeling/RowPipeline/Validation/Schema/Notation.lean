import RowPipeline.Text.Pattern.Notation
import RowPipeline.Validation.Schema

/-!
# The notation of schemas

A schema is written as a truth value or as an object whose entries are keywords. `Schema.ofValue?` gives
none if a keyword has a value that it cannot have. Keywords without a meaning here are skipped, and so
are annotations, which still have to be texts.
-/

namespace RowPipeline

namespace Schema

/-! ### Parts -/

/-- The items of a list. -/
def itemsOf? : Value → Option (List Value)
  | .list vs => some vs
  | _ => none

/-- The texts of a list without repetitions. -/
def namesOf? (v : Value) : Option (List String) := do
  let names ← (← itemsOf? v).mapM fun
    | .text s => some s
    | _ => none
  if names.Nodup then some names else none

/-- One type or a list of types without repetitions. -/
def typesOf? : Value → Option (List SimpleType)
  | .text s => (SimpleType.ofName? s).map ([·])
  | v => do
    let types ← (← namesOf? v).mapM SimpleType.ofName?
    if types.isEmpty then none else some types

/-- A number that may be a limit. -/
def limitOf? (v : Value) : Option Value := if v.quantity?.isSome then some v else none

/-- A whole number that is not negative, as a size. -/
def sizeOf? : Value → Option Nat
  | .int n => n.toNat?
  | .float x => x.toInt?.bind Int.toNat?
  | _ => none

/-- The keywords that only describe a schema. -/
def annotations : List String :=
  ["$schema", "$id", "$comment", "$anchor", "title", "description", "format"]

/-- The keys of the properties that an object declares. -/
def declaredNames (es : List (Key × Value)) : List Key :=
  match Entries.get? (.text "properties") es with
  | some (.dict ps) => Entries.keys ps
  | _ => []

/-- The rule of a keyword whose value holds no schemas; a keyword without meaning has no rule. -/
def plainRule? (keyword : String) (v : Value) : Option (List Rule) :=
  match keyword with
  | "type" => (typesOf? v).map fun types => [.type types]
  | "required" => (namesOf? v).map fun names => [.required (names.map Scalar.text)]
  | "enum" => (itemsOf? v).map fun values => [.enum values]
  | "const" => some [.const v]
  | "pattern" => match v with
    | .text s => (Text.Pattern.read? s).map fun p => [.pattern s p]
    | _ => none
  | "minimum" => (limitOf? v).map fun limit => [.bound .minimum limit]
  | "maximum" => (limitOf? v).map fun limit => [.bound .maximum limit]
  | "exclusiveMinimum" => (limitOf? v).map fun limit => [.bound .exclusiveMinimum limit]
  | "exclusiveMaximum" => (limitOf? v).map fun limit => [.bound .exclusiveMaximum limit]
  | "minLength" => (sizeOf? v).map fun limit => [.size .minLength limit]
  | "maxLength" => (sizeOf? v).map fun limit => [.size .maxLength limit]
  | "minItems" => (sizeOf? v).map fun limit => [.size .minItems limit]
  | "maxItems" => (sizeOf? v).map fun limit => [.size .maxItems limit]
  | "$ref" => match v with
    | .text s => some [.reference s]
    | _ => none
  | _ => if annotations.contains keyword then (match v with
      | .text _ => some []
      | _ => none) else some []

/-! ### Schemas -/

mutual

/-- Reads a schema. -/
def ofValue? : Value → Option Schema
  | .bool b => some (if b then anything else nothing)
  | .dict es => (rulesOf? (declaredNames es) es).map (rules (.dict es))
  | _ => none

/-- Reads the keywords of a schema. -/
def rulesOf? (known : List Key) : List (Key × Value) → Option (List Rule)
  | [] => some []
  | (k, v) :: rest => do return (← ruleOf? known k v) ++ (← rulesOf? known rest)

/-- Reads a keyword. -/
def ruleOf? (known : List Key) (k : Key) (v : Value) : Option (List Rule) :=
  match k with
  | .text "properties" => (schemasOf? v).map fun schemas => [.properties schemas]
  | .text "$defs" => (schemasOf? v).map fun _ => []
  | .text "additionalProperties" => (ofValue? v).map fun schema => [.additional known schema]
  | .text "items" => (ofValue? v).map fun schema => [.items schema]
  | .text "not" => (ofValue? v).map fun schema => [.not schema]
  | .text "allOf" => (branchesOf? v).map fun branches => [.allOf branches]
  | .text "anyOf" => (branchesOf? v).map fun branches => [.anyOf branches]
  | .text "oneOf" => (branchesOf? v).map fun branches => [.oneOf branches]
  | .text keyword => plainRule? keyword v
  | _ => some []

/-- Reads schemas under names. -/
def schemasOf? : Value → Option (List (Key × Schema))
  | .dict es => namedOf? es
  | _ => none

/-- Reads entries that are schemas. -/
def namedOf? : List (Key × Value) → Option (List (Key × Schema))
  | [] => some []
  | (k, v) :: rest => do return (k, ← ofValue? v) :: (← namedOf? rest)

/-- Reads a list of schemas that is not empty. -/
def branchesOf? : Value → Option (List Schema)
  | .list [] => none
  | .list vs => listOf? vs
  | _ => none

/-- Reads items that are schemas. -/
def listOf? : List Value → Option (List Schema)
  | [] => some []
  | v :: rest => do return (← ofValue? v) :: (← listOf? rest)

end

end Schema

/-- Reads a schema with its definitions. -/
def SchemaDocument.ofEntries? (es : List (Key × Value)) : Option SchemaDocument := do
  let root ← Schema.ofValue? (.dict es)
  let definitions := ((Entries.get? (.text "$defs") es).bind Schema.schemasOf?).getD []
  return ⟨root, definitions⟩

end RowPipeline
