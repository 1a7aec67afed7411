import RowPipeline.Double
import RowPipeline.Numeral

/-!
# Decimal numbers

A decimal is `± coefficient · 10 ^ exponent`, an infinity, or an undefined number, quiet or
signalling. `read?` reads the usual notation with digits of any script, underscores anywhere, an
optional exponent and the words for the special values; `text` writes a decimal so that its
coefficient and exponent can be read off again; `toDouble?` rounds to the nearest double.
-/

namespace RowPipeline

/-- A decimal number. -/
inductive Decimal where
  | finite (negative : Bool) (coefficient : Nat) (exponent : Int)
  | infinite (negative : Bool)
  | undefined (negative signalling : Bool) (payload : Nat)
  deriving DecidableEq

namespace Decimal

open Text Numeral

/-! ### Reading -/

/-- The digits in front, and the rest. -/
def spanDigits (cs : List Char) : List Char × List Char := (cs.takeWhile isDigit, cs.dropWhile isDigit)

/-- The value of a text of one or more digits. -/
def readNat? (cs : List Char) : Option Nat :=
  if cs.isEmpty || !cs.all isDigit then none else some (natOfDigits cs)

/-- The exponent part after the digits: nothing, or an `e` with a whole number. -/
def readExponent? : List Char → Option Int
  | [] => some 0
  | c :: cs =>
    if c == 'e' || c == 'E' then
      let (negative, ds) := readSign cs
      (readNat? ds).map fun n => if negative then -(n : Int) else n
    else none

/-- The fraction digits and what follows them. -/
def readFraction : List Char → List Char × List Char
  | '.' :: cs => spanDigits cs
  | cs => ([], cs)

/-- The bounds of the exponents a decimal may have: the adjusted exponent of its first digit and the
exponent of its last one. -/
def inBounds (coefficient : Nat) (exponent : Int) : Bool :=
  exponent + (Nat.toDigits 10 coefficient).length - 1 ≤ 999999999999999999 &&
    -1999999999999999997 ≤ exponent

/-- A finite decimal after its sign. -/
def readFinite? (negative : Bool) (cs : List Char) : Option Decimal := do
  let (whole, afterWhole) := spanDigits cs
  let (fraction, rest) := readFraction afterWhole
  let exponent ← readExponent? rest
  let coefficient ← readNat? (whole ++ fraction)
  let exponent := exponent - fraction.length
  if inBounds coefficient exponent then some (.finite negative coefficient exponent) else none

/-- The payload of an undefined number: nothing or digits. -/
def readPayload? (cs : List Char) : Option Nat := if cs.isEmpty then some 0 else readNat? cs

/-- A special value after its sign, in lowercase letters. -/
def readSpecial? (negative : Bool) : List Char → Option Decimal
  | ['i', 'n', 'f'] => some (.infinite negative)
  | ['i', 'n', 'f', 'i', 'n', 'i', 't', 'y'] => some (.infinite negative)
  | 'n' :: 'a' :: 'n' :: cs => (readPayload? cs).map (.undefined negative false ·)
  | 's' :: 'n' :: 'a' :: 'n' :: cs => (readPayload? cs).map (.undefined negative true ·)
  | _ => none

/-- Reads a decimal; blanks around it and underscores anywhere are ignored. -/
def read? (cs : List Char) : Option Decimal :=
  let (negative, body) := readSign ((trim cs).filter (· != '_'))
  (readFinite? negative body).orElse fun _ => readSpecial? negative (body.map Char.toLower)

/-! ### Writing -/

/-- The digits of a finite decimal with a point or an exponent, so that the exponent can be read
off: positional unless the exponent is positive or the first digit lies beyond six zeros. -/
def body (coefficient : Nat) (exponent : Int) : List Char :=
  let ds := Nat.toDigits 10 coefficient
  let point : Int := ds.length + exponent
  if exponent ≤ 0 ∧ -6 < point then
    if exponent = 0 then ds
    else if point ≤ 0 then '0' :: '.' :: List.replicate (-point).toNat '0' ++ ds
    else ds.take point.toNat ++ '.' :: ds.drop point.toNat
  else
    let tail := ds.drop 1
    let e := point - 1
    ds.take 1 ++ (if tail.isEmpty then [] else '.' :: tail) ++
      'E' :: (if e < 0 then '-' else '+') :: Nat.toDigits 10 e.natAbs

/-- The text of a decimal. -/
def text (d : Decimal) : String :=
  let sign (negative : Bool) (cs : List Char) := if negative then '-' :: cs else cs
  String.ofList <| match d with
    | .finite negative c e => sign negative (body c e)
    | .infinite negative => sign negative "Infinity".toList
    | .undefined negative signalling payload =>
      sign negative ((if signalling then "sNaN" else "NaN").toList ++
        if payload = 0 then [] else Nat.toDigits 10 payload)

/-! ### Rounding -/

/-- The nearest double. A signalling undefined number has none. -/
def toDouble? : Decimal → Option Double
  | .finite negative c e => some (.ofDecimal negative c e)
  | .infinite negative => some (.infinite negative)
  | .undefined _ signalling _ => if signalling then none else some .nan

end Decimal

end RowPipeline
