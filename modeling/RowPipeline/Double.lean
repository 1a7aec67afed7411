/-!
# Double-precision numbers

A double is a signed infinity, the undefined number `nan`, or `± significand · 2 ^ exponent` in
canonical form: the significand has 53 bits, fewer only at the least exponent. So two doubles are
the same number iff they are equal, the two zeros apart.

Every finite double is a whole number of *units*, the least positive double `2 ^ -1074`. Sums and
comparisons are exact in units; a sum, product or quotient is the exact result rounded once, to the
nearest double, a tie to the even significand (`ofRatio`).
-/

namespace RowPipeline

/-- The significands and exponents of the finite doubles. -/
def Double.Canonical (significand : Nat) (exponent : Int) : Prop :=
  significand < Nat.pow 2 53 ∧ -1074 ≤ exponent ∧ exponent ≤ 971 ∧
    (Nat.pow 2 52 ≤ significand ∨ exponent = -1074)

instance (significand : Nat) (exponent : Int) : Decidable (Double.Canonical significand exponent) :=
  inferInstanceAs (Decidable (_ ∧ _ ∧ _ ∧ _))

/-- A double-precision number. -/
inductive Double where
  | finite (negative : Bool) (significand : Nat) (exponent : Int)
      (canonical : Double.Canonical significand exponent)
  | infinite (negative : Bool)
  | nan
  deriving DecidableEq

namespace Double

/-! ### Rounding -/

/-- The quotient `num / den` rounded to the nearest whole number, a tie to the even one. -/
def nearest (num den : Nat) : Nat :=
  let quotient := num / den
  let twice := 2 * (num % den)
  if twice < den then quotient
  else if den < twice then quotient + 1
  else if quotient % 2 = 0 then quotient else quotient + 1

/-- Whether `num / den < 2 ^ e`. -/
def belowPower (num den : Nat) (e : Int) : Bool :=
  if 0 ≤ e then num < den * Nat.pow 2 e.toNat else num * Nat.pow 2 (-e).toNat < den

/-- The exponent of the double nearest to `num / den`: the quotient is then below `2 ^ 53` units of
it, and at least `2 ^ 52` of them unless the exponent is the least one. -/
def exponentFor (num den : Nat) : Int :=
  let e : Int := (Nat.log2 num : Int) - Nat.log2 den
  max ((if belowPower num den e then e - 1 else e) - 52) (-1074)

/-- `num / den` in multiples of `2 ^ e`, rounded. -/
def nearestMultiple (num den : Nat) (e : Int) : Nat :=
  if 0 ≤ e then nearest num (den * Nat.pow 2 e.toNat) else nearest (num * Nat.pow 2 (-e).toNat) den

/-- The double of these parts; parts beyond the largest exponent stand for an infinity. -/
def ofParts (negative : Bool) (significand : Nat) (exponent : Int) : Double :=
  if h : Canonical significand exponent then .finite negative significand exponent h
  else .infinite negative

/-- The double nearest to `± num / den`. -/
def ofRatio (negative : Bool) (num den : Nat) : Double :=
  let e := exponentFor num den
  let m := nearestMultiple num den e
  if m = Nat.pow 2 53 then ofParts negative (Nat.pow 2 52) (e + 1) else ofParts negative m e

/-- A zero of either sign. -/
def zeroOf (negative : Bool) : Double := .finite negative 0 (-1074) (by decide)

instance : Zero Double := ⟨zeroOf false⟩

/-! ### Units -/

/-- How many units make one. -/
def one : Nat := Nat.pow 2 1074

/-- The size of a finite double in units. -/
def magnitude (significand : Nat) (exponent : Int) : Nat :=
  significand * Nat.pow 2 (exponent + 1074).toNat

/-- A finite double in units. -/
def units? : Double → Option Int
  | .finite negative m e _ => some (if negative then -(magnitude m e : Int) else magnitude m e)
  | _ => none

/-- Whether the sign of a number is negative; `nan` has no sign. -/
def isNegative : Double → Bool
  | .finite negative .. => negative
  | .infinite negative => negative
  | .nan => false

/-- Whether a number is finite. -/
def isFinite : Double → Bool
  | .finite .. => true
  | _ => false

/-- Whether a number is zero, of either sign. -/
def isZero : Double → Bool
  | .finite _ m _ _ => m == 0
  | _ => false

/-- The whole number that a double is. -/
def toInt? (x : Double) : Option Int :=
  x.units?.bind fun u => if u % one = 0 then some (u / one) else none

/-! ### Arithmetic -/

/-- The number with the opposite sign. -/
def neg : Double → Double
  | .finite negative m e h => .finite (!negative) m e h
  | .infinite negative => .infinite (!negative)
  | .nan => .nan

/-- The sum, rounded. An exact zero is negative only as the sum of two negative zeros. -/
def add : Double → Double → Double
  | .nan, _ => .nan
  | _, .nan => .nan
  | .infinite a, .infinite b => if a = b then .infinite a else .nan
  | .infinite a, _ => .infinite a
  | _, .infinite b => .infinite b
  | x@(.finite ..), y@(.finite ..) =>
    let sum := x.units?.getD 0 + y.units?.getD 0
    if sum = 0 then zeroOf (x.isNegative && y.isNegative)
    else ofRatio (sum < 0) sum.natAbs one

/-- The difference, rounded. -/
def sub (x y : Double) : Double := add x y.neg

/-- The product, rounded. -/
def mul : Double → Double → Double
  | .nan, _ => .nan
  | _, .nan => .nan
  | x@(.infinite _), y => if y.isZero then .nan else .infinite (x.isNegative != y.isNegative)
  | x, y@(.infinite _) => if x.isZero then .nan else .infinite (x.isNegative != y.isNegative)
  | .finite a m e _, .finite b n f _ =>
    if m * n = 0 then zeroOf (a != b)
    else ofRatio (a != b) (magnitude m e * magnitude n f) (one * one)

/-- The quotient, rounded. A quotient by zero is an infinity, or `nan` for zero by zero. -/
def div : Double → Double → Double
  | .nan, _ => .nan
  | _, .nan => .nan
  | .infinite _, .infinite _ => .nan
  | .infinite a, y => .infinite (a != y.isNegative)
  | x, .infinite b => zeroOf (x.isNegative != b)
  | .finite a m e _, .finite b n f _ =>
    if n = 0 then (if m = 0 then .nan else .infinite (a != b))
    else if m = 0 then zeroOf (a != b)
    else ofRatio (a != b) (magnitude m e) (magnitude n f)

/-! ### Conversion and comparison -/

/-- The double nearest to a whole number. -/
def ofInt (n : Int) : Double := if n = 0 then 0 else ofRatio (n < 0) n.natAbs 1

/-- The double nearest to the quotient of two whole numbers, the second not zero. -/
def ofQuotient (a b : Int) : Double :=
  let negative := decide (a < 0) != decide (b < 0)
  if a = 0 then zeroOf negative else ofRatio negative a.natAbs b.natAbs

/-- The double nearest to `± coefficient · 10 ^ exponent`. -/
def ofDecimal (negative : Bool) (coefficient : Nat) (exponent : Int) : Double :=
  if coefficient = 0 then zeroOf negative
  else
    let magnitude : Int := (Nat.toDigits 10 coefficient).length + exponent
    if 400 < magnitude then .infinite negative
    else if magnitude < -400 then zeroOf negative
    else if 0 ≤ exponent then ofRatio negative (coefficient * Nat.pow 10 exponent.toNat) 1
    else ofRatio negative coefficient (Nat.pow 10 (-exponent).toNat)

/-- How a number compares with a whole number. -/
def compareInt? (x : Double) (n : Int) : Option Ordering :=
  match x with
  | .nan => none
  | .infinite a => some (if a then .lt else .gt)
  | x => some (compare (x.units?.getD 0) (n * one))

@[simp] theorem isFinite_zeroOf (negative : Bool) : (zeroOf negative).isFinite = true := rfl

end Double

end RowPipeline
