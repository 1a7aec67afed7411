import RowPipeline.Double.Notation
import RowPipeline.Validation.Model.Mismatch
import RowPipeline.Value.Quantity

/-!
# Lenient conversion

A model that asks for a number takes some values that are not numbers: a truth value counts as one or
zero, and a text that reads as a number counts as that number. `wholeOf` and `realOf` say which whole
number or double a value counts as. Texts are read by rules of their own, with ASCII digits only:
zeros may lead, a point with zeros may follow, and single underscores may stand between digits.
-/

namespace RowPipeline.Conversion

open Text

/-! ### Texts -/

/-- Whether a character is white space; the information separators are not. -/
def isSpace (c : Char) : Bool := isBlank c && !(0x1c ≤ c.toNat && c.toNat ≤ 0x1f)

/-- The text without the white space at its ends. -/
def strip (cs : List Char) : List Char :=
  ((cs.dropWhile isSpace).reverse.dropWhile isSpace).reverse

/-- Whether two underscores stand side by side. -/
def hasDouble : List Char → Bool
  | '_' :: '_' :: _ => true
  | _ :: rest => hasDouble rest
  | [] => false

/-- The text without underscores; those at an end and those side by side are refused. -/
def withoutUnderscores? (cs : List Char) : Option (List Char) :=
  if cs.head? = some '_' || cs.getLast? = some '_' || hasDouble cs then none
  else some (cs.filter (· != '_'))

/-- The number of one or more digits without a leading zero. -/
def readNatural? (cs : List Char) : Option Nat :=
  if cs.isEmpty || !cs.all isAsciiDigit || (cs.head? = some '0' && cs.length ≠ 1) then none
  else some (natOfDigits cs)

/-- The whole number of a text without leading zeros. -/
def readPlain? : List Char → Option Int
  | '-' :: cs => (readNatural? cs).map fun n => -(n : Int)
  | cs => (readNatural? cs).map fun n => (n : Int)

/-- The text from its first digit that is not zero; before a point and at the end one character is kept. -/
def skipZeros? (last : Char) : List Char → Option (List Char)
  | [] => some [last]
  | c :: rest =>
    if c == '0' || c == '_' then skipZeros? c rest
    else if isAsciiDigit c then some (c :: rest)
    else if c == '.' then some (last :: c :: rest)
    else none

/-- The text without leading zeros. -/
def dropZeros? : List Char → Option (List Char)
  | [] => none
  | c :: rest =>
    if c == '0' then skipZeros? c rest
    else if isAsciiDigit c || c == '-' then some (c :: rest)
    else none

/-- The text before a point that only zeros follow. -/
def dropFraction (cs : List Char) : List Char :=
  let rest := cs.dropWhile (· != '.')
  if (rest.drop 1).all (· == '0') then cs.takeWhile (· != '.') else cs

/-- The text of a whole number in plain form. -/
def clean? (cs : List Char) : Option (List Char) := do
  let body ← match strip cs with
    | '+' :: '-' :: _ => none
    | '+' :: rest => some rest
    | rest => some rest
  let digits := dropFraction (← dropZeros? body)
  return (withoutUnderscores? digits).getD digits

/-- The most characters of a text that is read as a whole number. -/
def maxLength : Nat := 4300

/-- The whole number of a text. -/
def wholeOfText (s : String) : Except Mismatch Int :=
  let cs := s.toList
  if maxLength < (strip cs).length then .error .tooManyDigits
  else match (readPlain? cs).or ((clean? cs).bind readPlain?) with
    | some n => .ok n
    | none => .error .unreadableWhole

/-- The double of a text. -/
def realOfText (s : String) : Except Mismatch Double :=
  match (Double.readReal? (strip s.toList)).or ((withoutUnderscores? s.toList).bind Double.readReal?) with
  | some x => .ok x
  | none => .error .unreadableReal

/-! ### Values -/

/-- The whole number of a quantity. -/
def wholeOfQuantity : Quantity → Except Mismatch Int
  | .finite q => if q.den = 1 then .ok q.num else .error .fraction
  | _ => .error .notFinite

/-- The whole number that a value counts as. -/
def wholeOf : Value → Except Mismatch Int
  | .int n => .ok n
  | .bool b => .ok (if b then 1 else 0)
  | .text s => wholeOfText s
  | v => match v.quantity? with
    | some q => wholeOfQuantity q
    | none => .error .notWhole

/-- The double that a value counts as; a whole number beyond the doubles counts as none. -/
def realOf : Value → Except Mismatch Double
  | .int n => (Number.doubleOfInt? n).elim (.error .notReal) .ok
  | .float x => .ok x
  | .bool b => .ok (.ofInt (if b then 1 else 0))
  | .decimal d => d.toDouble?.elim (.error .notReal) .ok
  | .text s => realOfText s
  | _ => .error .notReal

end RowPipeline.Conversion
