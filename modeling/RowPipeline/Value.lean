import RowPipeline.Fields
import RowPipeline.Decimal
import RowPipeline.Number

/-!
# Values

A value is a scalar, a list of values or a dictionary. Dictionaries keep the order of their entries,
and their keys are scalars: texts as a rule, but a number may name a field too. A record is a table
from such keys to values.
-/

namespace RowPipeline

/-- A value without parts. -/
inductive Scalar where
  | null
  | bool (b : Bool)
  | int (n : Int)
  | float (x : Double)
  | decimal (d : Decimal)
  | text (s : String)
  deriving DecidableEq

/-- The name of a field. -/
abbrev Key := Scalar

instance : Coe String Key := ⟨.text⟩

/-- A value as documents, rows and configs hold it. -/
inductive Value where
  | scalar (s : Scalar)
  | list (items : List Value)
  | dict (entries : List (Key × Value))

/-- A row or a config: values under keys, in order. -/
abbrev Record := Fields Key Value

namespace Value

/-- The absent value. -/
@[match_pattern] abbrev null : Value := .scalar .null

/-- A truth value. -/
@[match_pattern] abbrev bool (b : Bool) : Value := .scalar (.bool b)

/-- A whole number. -/
@[match_pattern] abbrev int (n : Int) : Value := .scalar (.int n)

/-- A double. -/
@[match_pattern] abbrev float (x : Double) : Value := .scalar (.float x)

/-- A decimal. -/
@[match_pattern] abbrev decimal (d : Decimal) : Value := .scalar (.decimal d)

/-- A text. -/
@[match_pattern] abbrev text (s : String) : Value := .scalar (.text s)

instance : Inhabited Value := ⟨null⟩

/-- A number as a value. -/
def ofNumber : Number → Value
  | .int n => .int n
  | .float x => .float x

/-- A number or its absence as a value. -/
def ofNumber? : Option Number → Value
  | some a => ofNumber a
  | none => null

/-- A record as a value. -/
def ofRecord (r : Record) : Value := .dict r.entries

/-- A dictionary as a record. -/
def toRecord? : Value → Option Record
  | .dict es => some (.ofList es)
  | _ => none

/-- Whether a value is the absent one. -/
def isNull : Value → Bool
  | null => true
  | _ => false

/-- Whether a value counts as empty: absent, false, zero, or without characters, items or entries. -/
def isBlank : Value → Bool
  | null => true
  | bool b => !b
  | int n => n == 0
  | float x => x.isZero
  | decimal (.finite _ c _) => c == 0
  | decimal _ => false
  | text s => s.isEmpty
  | .list items => items.isEmpty
  | .dict es => es.isEmpty

end Value

end RowPipeline
