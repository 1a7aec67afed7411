import RowPipeline.Failure

/-!
# Values as numbers

A value counts as a number when it is a whole number, a finite double or decimal, or a text that reads as
one of these: a whole number first, and otherwise a decimal. Truth values are no numbers. The number is
given in normal form, so a double that is a small whole number becomes that whole number.
-/

namespace RowPipeline

/-- A finite double in normal form. -/
def Number.ofFinite? (x : Double) : Option Number :=
  if x.isFinite then some (Number.float x).normalize else none

/-- The number that a text reads as. -/
def Number.ofText? (cs : List Char) : Option Number :=
  match Numeral.readInt? cs with
  | some n => some (.int n)
  | none => (Decimal.read? cs).bind fun d => d.toDouble?.bind Number.ofFinite?

/-- The number that a value counts as; only a signalling decimal fails. -/
def Value.toNumber : Value → Except Failure (Option Number)
  | int n => .ok (some (.int n))
  | float x => .ok (Number.ofFinite? x)
  | decimal d => match d.toDouble? with
    | some x => .ok (Number.ofFinite? x)
    | none => .error .signallingNumber
  | text s => .ok (Number.ofText? s.toList)
  | _ => .ok none

/-- The value with a double that is a small whole number turned into it. -/
def Value.normalize : Value → Value
  | float x => .ofNumber (Number.float x).normalize
  | v => v

/-- What becomes of a computed number: an infinity counts as a division by zero, an undefined number as
no value, and any other number is normalized. -/
def Number.finalize (a : Number) (source : String) : Except Failure (Option Number) :=
  match a with
  | float .nan => .ok none
  | float (.infinite _) => .error (.arithmetic (.divisionByZero source))
  | a => .ok (some a.normalize)

/-- `Number.finalize` on a value; one that is no double stays as it is. -/
def Value.finalize (v : Value) (source : String) : Except Failure Value :=
  match v with
  | float x => .ofNumber? <$> (Number.float x).finalize source
  | v => .ok v

/-- The number that takes part in arithmetic for a value: a truth value counts as one or zero. -/
def Value.operand? : Value → Option Number
  | bool b => some (.int (if b then 1 else 0))
  | int n => some (.int n)
  | float x => some (.float x)
  | _ => none

end RowPipeline
