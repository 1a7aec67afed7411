import RowPipeline.Text.Pattern
import RowPipeline.Value.Quantity

/-!
# Schemas

A schema says which values are valid: all of them, none, or those that keep every rule of a list. The
rules come in the order in which they are written, and each keeps what it needs to explain a violation.
A rule that is about another type of value than the one at hand is kept by default.

A document is a schema with the definitions that its references name.
-/

namespace RowPipeline

/-- The types of values that schemas tell apart. -/
inductive SimpleType where
  | array
  | boolean
  | integer
  | null
  | number
  | object
  | string
  deriving DecidableEq

namespace SimpleType

/-- Every type. -/
def all : List SimpleType := [array, boolean, integer, null, number, object, string]

/-- The name of a type. -/
def name : SimpleType → String
  | array => "array"
  | boolean => "boolean"
  | integer => "integer"
  | null => "null"
  | number => "number"
  | object => "object"
  | string => "string"

/-- The type of a name. -/
def ofName? (s : String) : Option SimpleType := all.find? (·.name == s)

/-- Whether a value is of a type. A double without fraction is an integer too, and truth values are no
numbers. -/
def accepts : SimpleType → Value → Bool
  | array, .list _ => true
  | boolean, .bool _ => true
  | integer, v => v.isWhole
  | null, v => v.isNull
  | number, v => v.quantity?.isSome
  | object, .dict _ => true
  | string, .text _ => true
  | _, _ => false

end SimpleType

/-- A limit on the size of numbers. -/
inductive Bound where
  | minimum
  | maximum
  | exclusiveMinimum
  | exclusiveMaximum
  deriving DecidableEq

namespace Bound

/-- The keyword of a limit. -/
def name : Bound → String
  | minimum => "minimum"
  | maximum => "maximum"
  | exclusiveMinimum => "exclusiveMinimum"
  | exclusiveMaximum => "exclusiveMaximum"

/-- Whether a quantity is beyond a limit. -/
def exceeded (limit q : Quantity) : Bound → Bool
  | minimum => q.below limit
  | maximum => limit.below q
  | exclusiveMinimum => q.below limit || q.equals limit
  | exclusiveMaximum => limit.below q || q.equals limit

/-- How a quantity beyond a limit relates to it. -/
def phrase : Bound → String
  | minimum => "is less than the minimum of"
  | maximum => "is greater than the maximum of"
  | exclusiveMinimum => "is less than or equal to the minimum of"
  | exclusiveMaximum => "is greater than or equal to the maximum of"

end Bound

/-- A limit on the number of characters of a text or of items of a list. -/
inductive SizeBound where
  | minLength
  | maxLength
  | minItems
  | maxItems
  deriving DecidableEq

namespace SizeBound

/-- The keyword of a limit. -/
def name : SizeBound → String
  | minLength => "minLength"
  | maxLength => "maxLength"
  | minItems => "minItems"
  | maxItems => "maxItems"

/-- The number that a limit is about. -/
def measure? : SizeBound → Value → Option Nat
  | minLength, .text s => some s.length
  | maxLength, .text s => some s.length
  | minItems, .list vs => some vs.length
  | maxItems, .list vs => some vs.length
  | _, _ => none

/-- Whether a size is beyond a limit. -/
def exceeded (limit size : Nat) : SizeBound → Bool
  | minLength | minItems => size < limit
  | maxLength | maxItems => limit < size

/-- What a value beyond a limit is said to be. -/
def phrase (limit : Nat) : SizeBound → String
  | minLength | minItems => if limit = 1 then "should be non-empty" else "is too short"
  | maxLength | maxItems => if limit = 0 then "is expected to be empty" else "is too long"

end SizeBound

mutual

/-- A schema. -/
inductive Schema where
  /-- Every value is valid. -/
  | anything
  /-- No value is valid. -/
  | nothing
  /-- A value is valid that keeps all rules; `source` is the schema as it was written. -/
  | rules (source : Value) (rules : List Rule)

/-- A rule of a schema. -/
inductive Rule where
  /-- A value has one of the types. -/
  | type (types : List SimpleType)
  /-- An object has these names. -/
  | required (names : List Key)
  /-- The values under these names are valid. -/
  | properties (schemas : List (Key × Schema))
  /-- The values under names that are not `known` are valid. -/
  | additional (known : List Key) (schema : Schema)
  /-- The items of an array are valid. -/
  | items (schema : Schema)
  /-- A value is one of these. -/
  | enum (values : List Value)
  /-- A value is this one. -/
  | const (value : Value)
  /-- A text has a match of a pattern, written `source`. -/
  | pattern (source : String) (pattern : Text.Pattern)
  /-- A number is within a limit. -/
  | bound (kind : Bound) (limit : Value)
  /-- A text or an array is within a limit. -/
  | size (kind : SizeBound) (limit : Nat)
  /-- A value is valid under every branch. -/
  | allOf (branches : List Schema)
  /-- A value is valid under some branch. -/
  | anyOf (branches : List Schema)
  /-- A value is valid under exactly one branch. -/
  | oneOf (branches : List Schema)
  /-- A value is not valid. -/
  | not (schema : Schema)
  /-- A value is valid under a definition. -/
  | reference (target : String)

end

instance : Inhabited Schema := ⟨.anything⟩

/-- The schema as it was written. -/
def Schema.source : Schema → Value
  | anything => .bool true
  | nothing => .bool false
  | rules source _ => source

/-- Whether a schema is the one without valid values. -/
def Schema.isNothing : Schema → Bool
  | nothing => true
  | _ => false

/-- A schema with its definitions. -/
structure SchemaDocument where
  root : Schema
  definitions : List (Key × Schema) := []

end RowPipeline
