import RowPipeline.Double.Shortest
import RowPipeline.Numeral

/-!
# Numbers

A number is a whole number of any size or a double. Whole numbers add, subtract and multiply exactly;
as soon as a double takes part the whole number is rounded to a double first, which fails when it is
beyond the doubles (`Number.toDouble?`). A quotient is always a double. `normalize` turns a double
that is a whole number of at most 53 bits into that whole number.
-/

namespace RowPipeline

/-- A whole number or a double. -/
inductive Number where
  | int (n : Int)
  | float (x : Double)
  deriving DecidableEq

namespace Number

/-- The largest whole number up to which every whole number is a double. -/
def maxSafe : Nat := Nat.pow 2 53 - 1

/-- A double that is a whole number of at most `maxSafe` becomes that whole number. -/
def normalize : Number → Number
  | .int n => .int n
  | .float x =>
    match x.toInt? with
    | some n => if n.natAbs ≤ maxSafe then .int n else .float x
    | none => .float x

/-- Whether a number is zero. -/
def isZero : Number → Bool
  | .int n => n == 0
  | .float x => x.isZero

/-- Whether a number is neither infinite nor undefined. -/
def isFinite : Number → Bool
  | .int _ => true
  | .float x => x.isFinite

/-- The nearest double, unless that is an infinity. -/
def doubleOfInt? (n : Int) : Option Double :=
  let x := Double.ofInt n
  if x.isFinite then some x else none

/-- The nearest double of a number. -/
def toDouble? : Number → Option Double
  | .int n => doubleOfInt? n
  | .float x => some x

/-- A double operation on two numbers. -/
def viaDouble (op : Double → Double → Double) (a b : Number) : Option Number := do
  return .float (op (← a.toDouble?) (← b.toDouble?))

/-- The sum; none if a whole number is beyond the doubles. -/
def add : Number → Number → Option Number
  | .int a, .int b => some (.int (a + b))
  | a, b => viaDouble Double.add a b

/-- The difference; none if a whole number is beyond the doubles. -/
def sub : Number → Number → Option Number
  | .int a, .int b => some (.int (a - b))
  | a, b => viaDouble Double.sub a b

/-- The product; none if a whole number is beyond the doubles. -/
def mul : Number → Number → Option Number
  | .int a, .int b => some (.int (a * b))
  | a, b => viaDouble Double.mul a b

/-- The quotient by a number that is not zero; none if it is beyond the doubles. -/
def div : Number → Number → Option Number
  | .int a, .int b =>
    let x := Double.ofQuotient a b
    if x.isFinite then some (.float x) else none
  | a, b => viaDouble Double.div a b

/-- The text of a number as it stands. -/
def rawText? : Number → Option String
  | .int n => Numeral.text? n
  | .float x => some x.text

/-- The text of a number, a whole double written as a whole number. -/
def text? (a : Number) : Option String := a.normalize.rawText?

@[simp] theorem normalize_int (n : Int) : (int n).normalize = .int n := rfl

theorem normalize_normalize (a : Number) : a.normalize.normalize = a.normalize := by
  cases a with
  | int n => rfl
  | float x =>
    cases h : x.toInt? with
    | none => simp [normalize, h]
    | some n => by_cases hn : n.natAbs ≤ maxSafe <;> simp [normalize, h, hn]

end Number

end RowPipeline
