import RowPipeline.Value

/-!
# Quantities

The quantity of a number is its exact size: a rational, an infinity, or undefined. Whole numbers, doubles
and decimals of one size have one quantity, so they can be compared with each other; truth values have no
quantity. Two values are the *same* if they differ at most in how their numbers are held.
-/

namespace RowPipeline

/-- The exact size of a number. -/
inductive Quantity where
  | finite (q : Rat)
  | infinite (negative : Bool)
  | undefined
  deriving DecidableEq

namespace Quantity

/-- The quantity of a double. -/
def ofDouble : Double → Quantity
  | .infinite negative => infinite negative
  | .nan => undefined
  | x => finite (mkRat (x.units?.getD 0) Double.one)

/-- The quantity of a decimal. -/
def ofDecimal : Decimal → Quantity
  | .finite negative c e =>
    let n : Int := if negative then -(c : Int) else c
    finite (if 0 ≤ e then mkRat (n * Nat.pow 10 e.toNat) 1 else mkRat n (Nat.pow 10 (-e).toNat))
  | .infinite negative => infinite negative
  | .undefined .. => undefined

/-- Whether one quantity is below another. -/
def below : Quantity → Quantity → Bool
  | undefined, _ => false
  | _, undefined => false
  | infinite a, infinite b => a && !b
  | infinite a, finite _ => a
  | finite _, infinite b => !b
  | finite p, finite q => p < q

/-- Whether two quantities are equal; the undefined one equals none. -/
def equals (a b : Quantity) : Bool := a != undefined && a == b

end Quantity

namespace Value

/-- The quantity of a number. -/
def quantity? : Value → Option Quantity
  | int n => some (.finite n)
  | float x => some (.ofDouble x)
  | decimal d => some (.ofDecimal d)
  | _ => none

/-- Whether a value is a whole number, held as such or as a double. -/
def isWhole : Value → Bool
  | int _ => true
  | float x => x.toInt?.isSome
  | _ => false

mutual

/-- Whether two values are the same. Entries of dictionaries may stand in any order. -/
def same : Value → Value → Bool
  | .scalar a, .scalar b =>
    match quantity? (.scalar a), quantity? (.scalar b) with
    | some p, some q => p.equals q
    | none, none => a == b
    | _, _ => false
  | .list vs, .list ws => sameItems vs ws
  | .dict es, .dict fs => es.length == fs.length && sameEntries es fs
  | _, _ => false

/-- Whether two lists have the same items. -/
def sameItems : List Value → List Value → Bool
  | [], [] => true
  | v :: vs, w :: ws => same v w && sameItems vs ws
  | _, _ => false

/-- Whether each entry has the same value in another dictionary. -/
def sameEntries : List (Key × Value) → List (Key × Value) → Bool
  | [], _ => true
  | (k, v) :: es, fs =>
    (match Entries.get? k fs with
      | some w => same v w
      | none => false) && sameEntries es fs

end

mutual

/-- How many levels of lists and dictionaries a value has. -/
def depth : Value → Nat
  | .scalar _ => 0
  | .list vs => depthItems vs + 1
  | .dict es => depthEntries es + 1

/-- The greatest depth of the items of a list. -/
def depthItems : List Value → Nat
  | [] => 0
  | v :: vs => max (depth v) (depthItems vs)

/-- The greatest depth of the values of a dictionary. -/
def depthEntries : List (Key × Value) → Nat
  | [] => 0
  | (_, v) :: es => max (depth v) (depthEntries es)

end

end Value

end RowPipeline
