import RowPipeline.Validation.Issue

/-!
# Mismatches

The ways in which a value can fail to be what a model asks for, each with its message and its code.
-/

namespace RowPipeline

/-- Why a value is not what a model asks for. -/
inductive Mismatch where
  | missing
  | notWhole
  | fraction
  | unreadableWhole
  | tooManyDigits
  | notFinite
  | notReal
  | unreadableReal
  | notPositive
  | notText
  | notList
  | notDictionary
  | notRecord (title : String)
  deriving DecidableEq

namespace Mismatch

/-- The wording of a mismatch. -/
def message : Mismatch → String
  | missing => "Field required"
  | notWhole => "Input should be a valid integer"
  | fraction => "Input should be a valid integer, got a number with a fractional part"
  | unreadableWhole => "Input should be a valid integer, unable to parse string as an integer"
  | tooManyDigits => "Unable to parse input string as an integer, exceeded maximum size"
  | notFinite => "Input should be a finite number"
  | notReal => "Input should be a valid number"
  | unreadableReal => "Input should be a valid number, unable to parse string as a number"
  | notPositive => "Input should be greater than 0"
  | notText => "Input should be a valid string"
  | notList => "Input should be a valid list"
  | notDictionary => "Input should be a valid dictionary"
  | notRecord title => "Input should be a valid dictionary or instance of " ++ title

/-- The code of a mismatch. -/
def code : Mismatch → String
  | missing => "missing"
  | notWhole => "int_type"
  | fraction => "int_from_float"
  | unreadableWhole => "int_parsing"
  | tooManyDigits => "int_parsing_size"
  | notFinite => "finite_number"
  | notReal => "float_type"
  | unreadableReal => "float_parsing"
  | notPositive => "greater_than"
  | notText => "string_type"
  | notList => "list_type"
  | notDictionary => "dict_type"
  | notRecord _ => "model_type"

/-- The issue of a mismatch at a place. -/
def issue (m : Mismatch) (path : Path := []) : Issue := ⟨path, m.message, m.code⟩

end Mismatch

end RowPipeline
