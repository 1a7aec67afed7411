import RowPipeline.Decimal

/-!
# Doubles in decimal notation

`readReal?` reads a double from ASCII text without blanks: a sign, digits with a point somewhere among
them, an exponent, or one of the words for the special values in any case. The result is the nearest
double, an infinity if the number is too large.
-/

namespace RowPipeline.Double

/-- The double of digits, with or without a point and an exponent. -/
def readDigits? (negative : Bool) (cs : List Char) : Option Double := do
  let (whole, rest) := Decimal.spanDigits cs
  let (fraction, rest) := Decimal.readFraction rest
  let exponent ← Decimal.readExponent? rest
  let coefficient ← Decimal.readNat? (whole ++ fraction)
  return .ofDecimal negative coefficient (exponent - fraction.length)

/-- The double that an ASCII text without blanks writes. -/
def readReal? (cs : List Char) : Option Double :=
  let (negative, body) := Numeral.readSign cs
  match String.ofList (body.map Char.toLower) with
  | "inf" => some (.infinite negative)
  | "infinity" => some (.infinite negative)
  | "nan" => some .nan
  | _ => if body.all fun c => c.toNat < 128 then readDigits? negative body else none

end RowPipeline.Double
