import RowPipeline.Text.Blank
import RowPipeline.Text.DecimalDigit

/-!
# Numerals

Whole numbers in decimal notation. Reading and writing stop at `maxDigits` digits: a longer numeral
is refused, not rounded. `readInt?` allows blanks around the number, a sign, digits of any script and
single underscores between digits; `ofDigits?` reads a bare run of digits and `text?` writes.
-/

namespace RowPipeline.Numeral

open Text

/-- The most digits a numeral may have, leading zeros included. -/
def maxDigits : Nat := 4300

/-- The least whole number that has too many digits to be written. -/
def bound : Nat := Nat.pow 10 maxDigits

/-- The number that a run of digits denotes, unless the run is too long. -/
def ofDigits? (cs : List Char) : Option Nat :=
  if cs.length ≤ maxDigits then some (natOfDigits cs) else none

/-- The digits of a text in which single underscores may stand between digits. -/
def groupedDigits? : List Char → Option (List Char)
  | [] => none
  | [c] => if isDigit c then some [c] else none
  | c :: '_' :: rest => if isDigit c then (groupedDigits? rest).map (c :: ·) else none
  | c :: rest => if isDigit c then (groupedDigits? rest).map (c :: ·) else none

/-- The sign in front of a number, and the rest. -/
def readSign : List Char → Bool × List Char
  | '-' :: cs => (true, cs)
  | '+' :: cs => (false, cs)
  | cs => (false, cs)

/-- Reads a whole number. -/
def readInt? (cs : List Char) : Option Int := do
  let (negative, body) := readSign (trim cs)
  let n ← ofDigits? (← groupedDigits? body)
  return if negative then -(n : Int) else n

/-- The text of a whole number, unless it has too many digits. -/
def text? (n : Int) : Option String :=
  if n.natAbs < bound then
    let digits := Nat.toDigits 10 n.natAbs
    some (String.ofList (if n < 0 then '-' :: digits else digits))
  else none

end RowPipeline.Numeral
