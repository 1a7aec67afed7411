import RowPipeline.Yaml.Flow

/-!
# Block style

Lists and dictionaries laid out by indentation. A document is cut into lines; `readNode` reads the value
that starts at the first line and is indented by at least so much, and gives back the lines after it. What
stands behind a dash counts as a line of its own, at the column where it stands.

`Yaml.read` reads a whole document. Anchors, aliases, tags, merges and more than one document are refused.
-/

namespace RowPipeline.Yaml

/-! ### Lines -/

/-- A line: how many spaces it starts with, and the characters after them. -/
structure Line where
  indent : Nat
  text : List Char

namespace Line

/-- A line of its characters. -/
def ofChars (cs : List Char) : Line := ⟨(cs.takeWhile (· == ' ')).length, cs.dropWhile (· == ' ')⟩

/-- The characters of a line. -/
def chars (l : Line) : List Char := List.replicate l.indent ' ' ++ l.text

/-- Whether a line is empty. -/
def isEmpty (l : Line) : Bool := l.text.isEmpty

/-- Whether a line holds a comment or nothing. -/
def isIgnored (l : Line) : Bool := l.text.isEmpty || l.text.head? == some '#'

/-- Whether a line starts an item of a list. -/
def isItem (l : Line) : Bool := match l.text with
  | '-' :: rest => rest.head?.all isBlankOrBreak
  | _ => false

/-- The line after a number of its characters and the spaces behind them. -/
def advance (l : Line) (count : Nat) : Line :=
  let rest := l.text.drop count
  ⟨l.indent + count + (rest.takeWhile (· == ' ')).length, rest.dropWhile (· == ' ')⟩

end Line

/-- The lines of a text. -/
def splitLines (cs : List Char) : List Line :=
  let parts := cs.foldr (fun c parts => match parts with
    | part :: rest => if c == '\n' then [] :: part :: rest else (c :: part) :: rest
    | [] => [[c]]) [[]]
  parts.map Line.ofChars

/-- The text of lines. -/
def joinLines (ls : List Line) : List Char := ['\n'].intercalate (ls.map Line.chars)

/-- The lines from the first one that is not ignored. -/
def dropIgnored (ls : List Line) : List Line := ls.dropWhile Line.isIgnored

/-! ### Scalars -/

/-- The characters of a plain scalar on one line, and what ends it; `blank` says whether a blank stands in
front. -/
def spanPlainLine (blank : Bool) : List Char → List Char × List Char
  | [] => ([], [])
  | c :: rest =>
    if c == '\t' || (c == ':' && endsKey false rest) || (c == '#' && blank) then ([], c :: rest)
    else
      let (cs, rest) := spanPlainLine (c == ' ') rest
      (c :: cs, rest)

/-- The lines that continue a plain scalar: the line break with the blank lines in front, and the text. A
comment ends the scalar, and a colon or a tab is a fault. -/
def continuation (least breaks : Nat) : List Line → Except Fault (List Char × List Line)
  | [] => .ok ([], [])
  | l :: rest =>
    if l.isEmpty then do
      let (cs, after) ← continuation least (breaks + 1) rest
      return (cs, if cs.isEmpty then l :: rest else after)
    else if l.indent < least || l.isIgnored then .ok ([], l :: rest)
    else
      let (cs, after) := spanPlainLine false l.text
      let content := (Gap.breaks breaks).content ++ trimEnd cs
      match after with
      | [] => do
        let (more, rest) ← continuation least 1 rest
        return (content ++ more, rest)
      | '#' :: _ => .ok (content, rest)
      | _ => .error .malformed

/-- Reads a plain scalar that starts at a line. -/
def readPlainLines (least : Nat) (l : Line) (rest : List Line) : Except Fault (Value × List Line) :=
  if !startsPlain false l.text then .error .malformed
  else
    let (cs, after) := spanPlainLine false l.text
    match after with
    | [] => do
      let (more, rest) ← continuation least 1 rest
      return (.scalar (← scalar (String.ofList (trimEnd cs ++ more))), rest)
    | '#' :: _ => do return (.scalar (← scalar (String.ofList (trimEnd cs))), rest)
    | _ => .error .malformed

/-- How the line breaks at the end of a block scalar are treated. -/
inductive Chomping where
  | strip
  | clip
  | keep
  deriving DecidableEq

/-- The header of a block scalar: how it ends, and its indentation if that is given. -/
def readHeader? : List Char → Option (Chomping × Option Nat)
  | [] => some (.clip, none)
  | c :: rest =>
    if c == '#' then none
    else if c == ' ' then
      match rest.dropWhile (· == ' ') with
      | [] => some (.clip, none)
      | c :: _ => if c == '#' then some (.clip, none) else none
    else do
      let (chomping, indent) ← readHeader? rest
      if c == '-' && chomping = .clip then some (.strip, indent)
      else if c == '+' && chomping = .clip then some (.keep, indent)
      else if '1' ≤ c && c ≤ '9' && indent.isNone then some (chomping, some (c.toNat - '0'.toNat))
      else none

/-- The lines of a block scalar, without their indentation, and the lines after it. -/
def spanBlock (indent : Nat) : List Line → List (List Char) × List Line
  | [] => ([], [])
  | l :: rest =>
    if l.isEmpty || indent ≤ l.indent then
      let (ls, rest) := spanBlock indent rest
      (l.chars.drop indent :: ls, rest)
    else ([], l :: rest)

/-- Joins the lines of a folded scalar; lines that are indented further keep their line breaks. -/
def foldLines : List (List Char) → List Char
  | [] => []
  | [l] => l
  | l :: m :: rest =>
    let plain (cs : List Char) : Bool := cs.head?.any fun c => c != ' ' && c != '\t'
    if plain l && plain m then l ++ ' ' :: foldLines (m :: rest)
    else if plain l && m.isEmpty && (rest.dropWhile List.isEmpty).head?.any plain then
      l ++ foldLines (m :: rest)
    else l ++ '\n' :: foldLines (m :: rest)

/-- Reads a block scalar after its sign. -/
def readBlockScalar (folded : Bool) (least : Nat) (header : List Char) (rest : List Line) :
    Except Fault (Value × List Line) :=
  match readHeader? header with
  | none => .error .malformed
  | some (chomping, given) =>
    let least := max least 1
    let indent := match given with
      | some n => least - 1 + n
      | none => max least ((rest.dropWhile Line.isEmpty).head?.elim 0 Line.indent)
    let (ls, after) := spanBlock indent rest
    let content := (ls.reverse.dropWhile List.isEmpty).reverse
    let body := if folded then foldLines content else ['\n'].intercalate content
    let breaks := ls.length + (if after.isEmpty then 0 else 1) - max content.length 1
    let ending := match chomping with
      | .strip => []
      | .clip => if content.isEmpty then [] else List.replicate (min breaks 1) '\n'
      | .keep => List.replicate breaks '\n'
    .ok (.text (String.ofList (body ++ ending)), after)

/-- The lines after a value that ends within a line; only a comment may stand behind it. -/
def finishLine (cs : List Char) : Except Fault (List Line) :=
  match splitLines cs with
  | [] => .ok []
  | l :: rest => if l.isIgnored then .ok rest else .error .malformed

/-- Reads a value that is no block collection: a scalar or a value in flow style. -/
def readInline (least : Nat) (l : Line) (rest : List Line) : Except Fault (Value × List Line) :=
  match l.text with
  | '|' :: header => readBlockScalar false least header rest
  | '>' :: header => readBlockScalar true least header rest
  | c :: _ =>
    if "[\x7b\"'".contains c then do
      let cs := joinLines (l :: rest)
      let (v, after) ← readFlow (cs.length + 1) cs
      return (v, ← finishLine after)
    else readPlainLines least l rest
  | [] => .error .malformed

/-! ### Collections -/

/-- The key that a line starts with, and the line after its colon. -/
def splitKey? (l : Line) : Option (Except Fault (Key × Line)) :=
  let finish (key : Except Fault Key) (after : List Char) : Option (Except Fault (Key × Line)) :=
    match after.dropWhile (· == ' ') with
    | ':' :: rest =>
      if endsKey false rest then some (key.map fun k => (k, l.advance (l.text.length - rest.length)))
      else none
    | _ => none
  match readQuoted? l.text with
  | some (.ok (s, after)) => finish (.ok (.text s)) after
  | some (.error _) => none
  | none =>
    if startsPlain false l.text then
      let (cs, after) := spanPlainLine false l.text
      finish (scalar (String.ofList (trimEnd cs))) after
    else none

mutual

/-- Reads the value at the first line that is indented by at least `least`; there may be none. Each step
goes further into a line or past it, so `fuel` above the number of characters and lines is enough. -/
def readNode (fuel least : Nat) (ls : List Line) : Except Fault (Value × List Line) :=
  match fuel, dropIgnored ls with
  | 0, _ => .error .malformed
  | _ + 1, [] => .ok (.null, [])
  | fuel + 1, l :: rest =>
    if l.indent < least then .ok (.null, l :: rest)
    else if l.isItem then (readList fuel l.indent (l :: rest)).map fun (vs, rest) => (.list vs, rest)
    else if (splitKey? l).isSome then
      (readDict fuel l.indent (l :: rest)).map fun (es, rest) => (.dict (Entries.putAll [] es), rest)
    else readInline least l rest

/-- Reads the items of a list whose dashes stand in a column. -/
def readList (fuel column : Nat) (ls : List Line) : Except Fault (List Value × List Line) :=
  match fuel, dropIgnored ls with
  | 0, _ => .error .malformed
  | _ + 1, [] => .ok ([], [])
  | fuel + 1, l :: rest =>
    if l.indent = column && l.isItem then do
      let (v, rest) ← readNode fuel (column + 1) (l.advance 1 :: rest)
      let (vs, rest) ← readList fuel column rest
      return (v :: vs, rest)
    else if column < l.indent then .error .malformed
    else .ok ([], l :: rest)

/-- Reads the entries of a dictionary whose keys stand in a column. The items of a list may stand in the
column of its key. -/
def readDict (fuel column : Nat) (ls : List Line) : Except Fault (List (Key × Value) × List Line) :=
  match fuel, dropIgnored ls with
  | 0, _ => .error .malformed
  | _ + 1, [] => .ok ([], [])
  | fuel + 1, l :: rest =>
    if column < l.indent then .error .malformed
    else if l.indent < column || l.isItem then .ok ([], l :: rest)
    else match splitKey? l with
      | none => .error .malformed
      | some entry => do
        let (key, after) ← entry
        let (v, rest) ← if after.isIgnored then
            match dropIgnored rest with
            | next :: others =>
              if next.indent = column && next.isItem then
                (readList fuel column (next :: others)).map fun (vs, rest) => (.list vs, rest)
              else readNode fuel (column + 1) (next :: others)
            | [] => pure (.null, [])
          else readInline (column + 1) after rest
        let (es, rest) ← readDict fuel column rest
        return ((key, v) :: es, rest)

end

/-! ### Documents -/

/-- Whether a character may occur in a document. -/
def isAllowed (c : Char) : Bool :=
  let n := c.toNat
  n == 9 || n == 10 || n == 13 || (0x20 ≤ n && n ≤ 0x7e) || n == 0x85 || (0xa0 ≤ n && n ≤ 0xd7ff) ||
    (0xe000 ≤ n && n ≤ 0xfffd) || 0x10000 ≤ n

/-- The text with each line end written as one line feed. -/
def unifyLineEnds : List Char → List Char
  | '\r' :: '\n' :: rest => '\n' :: unifyLineEnds rest
  | '\r' :: rest => '\n' :: unifyLineEnds rest
  | c :: rest => c :: unifyLineEnds rest
  | [] => []

/-- Whether a line is a mark of three characters, alone or before a space. -/
def isMark (mark : Char) (l : Line) : Bool :=
  l.indent == 0 && l.text.take 3 == [mark, mark, mark] && (l.text.drop 3).head?.all isBlankOrBreak

/-- The lines of a document after the mark of its start, if there is one. -/
def dropStart (ls : List Line) : List Line :=
  match dropIgnored ls with
  | l :: rest => if isMark '-' l then l.advance 3 :: rest else l :: rest
  | [] => []

/-- The lines up to the mark of the end; nothing but comments may stand behind it. -/
def dropEnd (ls : List Line) : Except Fault (List Line) :=
  let body := ls.takeWhile fun l => !isMark '.' l && !isMark '-' l
  match ls.drop body.length with
  | [] => .ok body
  | l :: rest => if isMark '.' l && (dropIgnored rest).isEmpty then .ok (body ++ [⟨0, []⟩]) else .error .malformed

/-- Reads a document. -/
def read (s : String) : Except Fault Value := do
  let cs := unifyLineEnds s.toList
  if !cs.all isAllowed then .error .malformed
  else
    let cs := if cs.head? == some '\ufeff' then cs.drop 1 else cs
    let ls ← dropEnd (dropStart (splitLines cs))
    let (v, rest) ← readNode (2 * cs.length + 2) 0 ls
    if (dropIgnored rest).isEmpty then return v else .error .malformed

end RowPipeline.Yaml
