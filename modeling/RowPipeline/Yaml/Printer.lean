import RowPipeline.Text.Quoted
import RowPipeline.Yaml.Scalar

/-!
# Writing documents

`Yaml.print?` writes a value in block style: entries and items on lines of their own, nested ones indented
by two spaces. A text that would be read as something else stands in double quotes. There is no document
for a value that holds a whole number of too many digits or a decimal.
-/

namespace RowPipeline.Yaml

/-! ### Scalars -/

/-- How a character is written between double quotes. -/
def escaped (c : Char) : List Char :=
  if c == '"' || c == '\\' then ['\\', c]
  else if c == '\n' then ['\\', 'n']
  else if c == '\t' then ['\\', 't']
  else if Text.isPrintable c then [c]
  else if c.toNat < 0x100 then '\\' :: 'x' :: Text.hex 2 c.toNat
  else if c.toNat < 0x10000 then '\\' :: 'u' :: Text.hex 4 c.toNat
  else '\\' :: 'U' :: Text.hex 8 c.toNat

/-- Whether a character may stand in a text without quotes. -/
def isSimple (c : Char) : Bool := Text.isAsciiWord c || c == '_' || c == '-' || c == '/' || c == '.'

/-- A text as it is written. -/
def textNotation (s : String) : String :=
  let plain := s.toList.head?.any Text.isAsciiLetter && s.toList.all isSimple &&
    match scalar s with
    | .ok (.text _) => true
    | _ => false
  if plain then s else String.ofList ('"' :: s.toList.flatMap escaped ++ ['"'])

/-- A double as it is written, with a point. -/
def doubleNotation : Double → String
  | .infinite negative => if negative then "-.inf" else ".inf"
  | .nan => ".nan"
  | x =>
    let cs := x.text.toList
    String.ofList (if cs.contains '.' then cs
      else cs.takeWhile (· != 'e') ++ ['.', '0'] ++ cs.dropWhile (· != 'e'))

/-- A scalar as it is written. -/
def scalarNotation? : Scalar → Option String
  | .null => some "null"
  | .bool b => some (if b then "true" else "false")
  | .int n => Numeral.text? n
  | .float x => some (doubleNotation x)
  | .decimal _ => none
  | .text s => some (textNotation s)

/-! ### Values -/

/-- The lines of a value behind a dash. -/
def behindDash : List String → List String
  | [] => []
  | l :: ls => ("- " ++ l) :: ls.map ("  " ++ ·)

/-- Whether a value takes one line. -/
def isShort : Value → Bool
  | .scalar _ => true
  | .list vs => vs.isEmpty
  | .dict es => es.isEmpty

/-- The lines of an entry with the lines of its value. -/
def entryLines (key : String) (v : Value) (ls : List String) : List String :=
  if isShort v then [key ++ ": " ++ String.join ls]
  else (key ++ ":") :: match v with
    | .list _ => ls
    | _ => ls.map ("  " ++ ·)

mutual

/-- The lines of a value. -/
def lines? : Value → Option (List String)
  | .scalar s => (scalarNotation? s).map ([·])
  | .list [] => some ["[]"]
  | .list vs => itemLines? vs
  | .dict [] => some ["\x7b\x7d"]
  | .dict es => entriesLines? es

/-- The lines of the items of a list. -/
def itemLines? : List Value → Option (List String)
  | [] => some []
  | v :: vs => do return behindDash (← lines? v) ++ (← itemLines? vs)

/-- The lines of the entries of a dictionary. -/
def entriesLines? : List (Key × Value) → Option (List String)
  | [] => some []
  | (k, v) :: es => do
    return entryLines (← scalarNotation? k) v (← lines? v) ++ (← entriesLines? es)

end

/-- The document of a value. -/
def print? (v : Value) : Option String := do return String.join ((← lines? v).map (· ++ "\n"))

end RowPipeline.Yaml
