import RowPipeline.Value
import RowPipeline.Text.Quoted

/-!
# The text of a value

`text?` writes a value as messages show it. Inside a list or a dictionary, and in `quoted?`, a text
stands in quotes. There is no text for a value that holds a whole number of too many digits.
-/

namespace RowPipeline

/-- The text of a scalar. -/
def Scalar.text? : Scalar → Option String
  | .null => some "None"
  | .bool b => some (if b then "True" else "False")
  | .int n => Numeral.text? n
  | .float x => some x.text
  | .decimal d => some d.text
  | .text s => some s

/-- The text of a scalar inside another value. -/
def Scalar.quoted? : Scalar → Option String
  | .text s => some (Text.quoted s)
  | .decimal d => some ("Decimal('" ++ d.text ++ "')")
  | s => s.text?

/-- How messages write the name of a field. -/
def Scalar.label (k : Key) : String := k.text?.getD ""

namespace Value

mutual

/-- The text of a value, a text in quotes. -/
def quoted? : Value → Option String
  | .scalar s => s.quoted?
  | .list items => do return "[" ++ ", ".intercalate (← quotedItems? items) ++ "]"
  | .dict es => do return "\x7b" ++ ", ".intercalate (← quotedEntries? es) ++ "\x7d"

/-- The texts of list items. -/
def quotedItems? : List Value → Option (List String)
  | [] => some []
  | v :: rest => do return (← quoted? v) :: (← quotedItems? rest)

/-- The texts of dictionary entries. -/
def quotedEntries? : List (Key × Value) → Option (List String)
  | [] => some []
  | (k, v) :: rest => do return ((← k.quoted?) ++ ": " ++ (← quoted? v)) :: (← quotedEntries? rest)

end

/-- The text of a value. -/
def text? : Value → Option String
  | .scalar s => s.text?
  | v => v.quoted?

/-- The name of a value's type in messages. -/
def typeName : Value → String
  | null => "NoneType"
  | bool _ => "bool"
  | int _ => "int"
  | float _ => "float"
  | decimal _ => "Decimal"
  | text _ => "str"
  | .list _ => "list"
  | .dict _ => "dict"

end Value

end RowPipeline
