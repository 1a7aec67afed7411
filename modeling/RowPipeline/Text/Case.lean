import RowPipeline.Text.CaseTable

/-!
# Full case mapping

`lower` and `upper` map a text by Unicode's full case mappings, so a character may become several.
The one rule that looks around is the final sigma: a capital sigma after a cased letter and before
none becomes `ς`; the scan for a letter steps over case-ignorable characters such as apostrophes.
-/

namespace RowPipeline.Text

open CaseTable

/-- Whether a code point lies in one of the ranges. -/
def inRanges (ranges : List (Nat × Nat)) (n : Nat) : Bool :=
  ranges.any fun (first, last) => first ≤ n && n ≤ last

/-- Where the run that holds a code point sends it. -/
def shiftIn (runs : List Run) (n : Nat) : Nat :=
  match runs.find? fun (first, last, step, _) =>
      first ≤ n && n ≤ last && (n - first) % step == 0 with
  | some (_, _, _, shift) => (n + shift).toNat
  | none => n

/-- The lowercase form of a character, the sigma rule apart. -/
def lowerChar (c : Char) : List Char :=
  let n := c.toNat
  if n < 128 then [c.toLower]
  else if n == 0x130 then ['i', '\u0307']
  else [Char.ofNat (shiftIn lowerRuns n)]

/-- The uppercase form of a character. -/
def upperChar (c : Char) : List Char :=
  let n := c.toNat
  if n < 128 then [c.toUpper]
  else match upperSequences.lookup n with
    | some codes => codes.map Char.ofNat
    | none => [Char.ofNat (shiftIn upperRuns n)]

/-- Whether the nearest character that is not case-ignorable is a cased letter. -/
def meetsCased (cs : List Char) : Bool :=
  match cs.dropWhile fun c => inRanges caseIgnorable c.toNat with
  | [] => false
  | c :: _ => inRanges cased c.toNat

/-- Lowercase of a text whose preceding characters, last one first, are `before`. -/
def lowerFrom (before : List Char) : List Char → List Char
  | [] => []
  | c :: rest =>
    let mapped :=
      if c == 'Σ' then [if meetsCased before && !meetsCased rest then 'ς' else 'σ']
      else lowerChar c
    mapped ++ lowerFrom (c :: before) rest

/-- The text in lowercase. -/
def lower (s : String) : String := String.ofList (lowerFrom [] s.toList)

/-- The text in uppercase. -/
def upper (s : String) : String := String.ofList (s.toList.flatMap upperChar)

end RowPipeline.Text
