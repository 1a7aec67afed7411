import RowPipeline.Double.Notation
import RowPipeline.Text.Pattern.Notation
import RowPipeline.Value

/-!
# Plain scalars

A scalar that is written without quotes is a truth value, a number, the absent value, or a text, decided
by its form alone. Whole numbers may be binary, octal, hexadecimal or in base sixty; a double needs a
point, and its exponent a sign. Dates are texts here.
-/

namespace RowPipeline.Yaml

/-- Why a document cannot be read. -/
inductive Fault where
  | malformed
  | numeralTooLong
  deriving DecidableEq

open Text

/-! ### Forms -/

/-- The pattern of a text. -/
def form (source : String) : Pattern := (Pattern.read? source).getD .nothing

/-- The words for truth. -/
def trueWords : List String := ["yes", "Yes", "YES", "true", "True", "TRUE", "on", "On", "ON"]

/-- The words for falsehood. -/
def falseWords : List String := ["no", "No", "NO", "false", "False", "FALSE", "off", "Off", "OFF"]

/-- The words for the absent value. -/
def nullWords : List String := ["", "~", "null", "Null", "NULL"]

/-- The form of doubles in base ten. -/
def decimalForm : Pattern :=
  form "^(?:[-+]?[0-9][0-9_]*\\.[0-9_]*(?:[eE][-+][0-9]+)?|\\.[0-9][0-9_]*(?:[eE][-+][0-9]+)?)$"

/-- The form of the special doubles. -/
def specialForm : Pattern := form "^(?:[-+]?\\.(?:inf|Inf|INF)|\\.(?:nan|NaN|NAN))$"

/-- The form of doubles in base sixty. -/
def baseSixtyDoubleForm : Pattern := form "^[-+]?[0-9][0-9_]*(?::[0-5]?[0-9])+\\.[0-9_]*$"

/-- The form of binary numbers. -/
def binaryForm : Pattern := form "^[-+]?0b[0-1_]+$"

/-- The form of octal numbers. -/
def octalForm : Pattern := form "^[-+]?0[0-7_]+$"

/-- The form of decimal whole numbers. -/
def wholeForm : Pattern := form "^[-+]?(?:0|[1-9][0-9_]*)$"

/-- The form of hexadecimal numbers. -/
def hexadecimalForm : Pattern := form "^[-+]?0x[0-9a-fA-F_]+$"

/-- The form of whole numbers in base sixty. -/
def baseSixtyForm : Pattern := form "^[-+]?[1-9][0-9_]*(?::[0-5]?[0-9])+$"

/-! ### Values -/

/-- A number with a sign. -/
def signed (negative : Bool) (n : Nat) : Int := if negative then -(n : Int) else n

/-- The number of digits in a base. -/
def ofBase (base : Nat) (cs : List Char) : Except Fault Nat :=
  match cs.filterMap Pattern.hexValue? with
  | [] => .error .numeralTooLong
  | ds => .ok (ds.foldl (fun n d => base * n + d) 0)

/-- The number of decimal digits. -/
def ofDecimal (cs : List Char) : Except Fault Nat := (Numeral.ofDigits? cs).elim (.error .numeralTooLong) .ok

/-- The whole number of parts in base sixty. -/
def ofParts (parts : List (List Char)) : Except Fault Nat :=
  parts.foldlM (fun n part => do return 60 * n + (← ofDecimal part)) 0

/-- The parts of a text between colons. -/
def splitColons (cs : List Char) : List (List Char) :=
  cs.foldr (fun c parts => match parts with
    | part :: rest => if c == ':' then [] :: part :: rest else (c :: part) :: rest
    | [] => [[c]]) [[]]

/-- The double of parts in base sixty, the last one with a point. -/
def ofPartsWithPoint (parts : List (List Char)) : Option Double := do
  let last ← parts.getLast?
  let whole ← (ofParts parts.dropLast).toOption
  return Double.add (.ofInt (60 * whole)) (← Double.readReal? last)

/-- The whole number that a scalar without underscores writes. -/
def wholeOf? (s : String) (negative : Bool) (digits : List Char) : Option (Except Fault Int) :=
  let signedOf := fun r : Except Fault Nat => some (r.map (signed negative))
  if wholeForm.search s then signedOf (ofDecimal digits)
  else if binaryForm.search s then signedOf (ofBase 2 (digits.drop 2))
  else if hexadecimalForm.search s then signedOf (ofBase 16 (digits.drop 2))
  else if octalForm.search s then signedOf (ofBase 8 digits)
  else if baseSixtyForm.search s then signedOf (ofParts (splitColons digits))
  else none

/-- The double that a scalar without underscores writes. -/
def doubleOf? (s : String) (negative : Bool) (digits : List Char) : Option Double :=
  let signedOf := fun x : Double => if negative then x.neg else x
  if decimalForm.search s then (Double.readReal? digits).map signedOf
  else if specialForm.search s then (Double.readReal? (digits.drop 1)).map signedOf
  else if baseSixtyDoubleForm.search s then (ofPartsWithPoint (splitColons digits)).map signedOf
  else none

/-- The value of a scalar that is written without quotes. A lone equals sign and the mark of a merge have
none. -/
def scalar (s : String) : Except Fault Scalar :=
  if s = "=" || s = "<<" then .error .malformed
  else if trueWords.contains s then .ok (.bool true)
  else if falseWords.contains s then .ok (.bool false)
  else if nullWords.contains s then .ok .null
  else
    let (negative, digits) := Numeral.readSign (s.toList.filter (· != '_'))
    match doubleOf? s negative digits, wholeOf? s negative digits with
    | some x, _ => .ok (.float x)
    | none, some n => n.map .int
    | none, none => .ok (.text s)

end RowPipeline.Yaml
