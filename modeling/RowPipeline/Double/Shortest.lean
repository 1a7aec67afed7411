import RowPipeline.Double

/-!
# The shortest text of a double

A finite double is written with the fewest significant digits that read back as it, the nearest of
these to its value. The digits of length `n` come from the two neighbours of the value on the grid of
step `10 ^ (position - n)`; of the grids with one to seventeen digits the first that has a neighbour
within the interval of reals that round to the double is taken.

The notation is positional for decimal exponents from -4 to 15, and always has a point or an exponent.
-/

namespace RowPipeline.Double

/-- The reals that round to a double: the bounds in quarter units, and whether they belong to it. -/
structure Interval where
  lower : Nat
  upper : Nat
  closed : Bool

/-- The interval of a positive double. Below a power of two the neighbours are nearer. -/
def interval (m : Nat) (e : Int) : Interval :=
  let gap := Nat.pow 2 (e + 1074).toNat
  let value := 4 * magnitude m e
  let below := if m = Nat.pow 2 52 ∧ -1074 < e then gap else 2 * gap
  ⟨value - below, value + 2 * gap, m % 2 = 0⟩

/-- Whether `c · 10 ^ (-scale)` lies in the interval. -/
def Interval.holds (i : Interval) (c : Nat) (scale : Int) : Bool :=
  let point := c * 4 * one * Nat.pow 10 (-scale).toNat
  let lower := i.lower * Nat.pow 10 scale.toNat
  let upper := i.upper * Nat.pow 10 scale.toNat
  if i.closed then lower ≤ point && point ≤ upper else lower < point && point < upper

/-- The decimal position of a positive number of units: the value is at least
`10 ^ (position - 1)` and below `10 ^ position`. -/
def position (units : Nat) : Int :=
  ((Nat.toDigits 10 (units * Nat.pow 10 330 / one)).length : Int) - 330

/-- The digits of length `n` that read back, if there are any: of two, the nearer. -/
def digitsOfLength? (i : Interval) (units : Nat) (scale : Int) : Option Nat :=
  let num := units * Nat.pow 10 scale.toNat
  let den := one * Nat.pow 10 (-scale).toNat
  let low := num / den
  match i.holds low scale, i.holds (low + 1) scale with
  | true, true => some (nearest num den)
  | true, false => some low
  | false, true => some (low + 1)
  | false, false => none

/-- The coefficient and scale of the shortest digits, found among the lengths from `n` on. -/
def searchDigits (i : Interval) (units : Nat) (place : Int) : Nat → Nat → Nat × Int
  | 0, n => (nearest (units * Nat.pow 10 (n - place).toNat) (one * Nat.pow 10 (place - n).toNat), n - place)
  | fuel + 1, n =>
    match digitsOfLength? i units (n - place) with
    | some c => (c, n - place)
    | none => searchDigits i units place fuel (n + 1)

/-- The digits without trailing zeros. -/
def stripZeros (ds : List Char) : List Char := (ds.reverse.dropWhile (· == '0')).reverse

/-- The shortest digits of a positive double and the position of the point within them. -/
def shortest (m : Nat) (e : Int) : List Char × Int :=
  let units := magnitude m e
  let (c, scale) := searchDigits (interval m e) units (position units) 16 1
  let ds := Nat.toDigits 10 c
  (stripZeros ds, ds.length - scale)

/-- The exponent in two digits or more, its sign written. -/
def exponentText (e : Int) : List Char :=
  let ds := Nat.toDigits 10 e.natAbs
  (if e < 0 then '-' else '+') :: (if ds.length < 2 then '0' :: ds else ds)

/-- Digits with the point at a position, positional or with an exponent. -/
def layout (ds : List Char) (point : Int) : List Char :=
  if -4 < point ∧ point ≤ 16 then
    if point ≤ 0 then '0' :: '.' :: List.replicate (-point).toNat '0' ++ ds
    else
      let whole := point.toNat
      if ds.length ≤ whole then ds ++ List.replicate (whole - ds.length) '0' ++ ['.', '0']
      else ds.take whole ++ '.' :: ds.drop whole
  else
    let tail := ds.drop 1
    ds.take 1 ++ (if tail.isEmpty then [] else '.' :: tail) ++ 'e' :: exponentText (point - 1)

/-- The text of a double. -/
def text : Double → String
  | .nan => "nan"
  | .infinite negative => if negative then "-inf" else "inf"
  | .finite negative m e _ =>
    let body := if m = 0 then ['0', '.', '0'] else
      let (ds, point) := shortest m e
      layout ds point
    String.ofList (if negative then '-' :: body else body)

end RowPipeline.Double
