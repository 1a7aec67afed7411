import RowPipeline.Yaml.Scalar

/-!
# Flow style

Values in brackets and braces, texts in quotes, and plain scalars. Such a value may go over several lines:
a line break inside a scalar counts as one space, and blank lines are kept as line breaks. A tab outside
of quotes is refused.

A reader takes the characters in front and gives back the rest.
-/

namespace RowPipeline.Yaml

/-- A reader: a value and the characters after it. -/
abbrev Step (α : Type) : Type := List Char → Except Fault (α × List Char)

/-! ### Line breaks -/

/-- The blanks between two characters of a scalar. -/
inductive Gap where
  /-- Blanks on one line. -/
  | blanks (cs : List Char)
  /-- Line breaks, and blanks around them. -/
  | breaks (count : Nat)
  /-- Line breaks after one that was escaped. -/
  | joined (count : Nat)

namespace Gap

/-- What a gap stands for. -/
def content : Gap → List Char
  | blanks cs => cs
  | breaks 1 => [' ']
  | breaks count => List.replicate (count - 1) '\n'
  | joined count => List.replicate count '\n'

/-- The gap with another blank. -/
def addBlank (c : Char) : Gap → Gap
  | blanks cs => blanks (cs ++ [c])
  | gap => gap

/-- The gap with another line break. -/
def addBreak : Gap → Gap
  | blanks _ => breaks 1
  | breaks count => breaks (count + 1)
  | joined count => joined (count + 1)

end Gap

/-- Replaces the line breaks of a scalar; with `escapes` a backslash protects the character after it. -/
def fold (escapes : Bool) (gap : Gap) : List Char → List Char
  | [] => gap.content
  | '\\' :: c :: rest =>
    if !escapes then gap.content ++ '\\' :: fold escapes (.blanks []) (c :: rest)
    else if c = '\n' then gap.content ++ fold escapes (.joined 0) rest
    else gap.content ++ '\\' :: c :: fold escapes (.blanks []) rest
  | c :: rest =>
    if c = '\n' then fold escapes gap.addBreak rest
    else if c = ' ' || c = '\t' then fold escapes (gap.addBlank c) rest
    else gap.content ++ c :: fold escapes (.blanks []) rest

/-! ### Quotes -/

/-- The characters that an escape letter stands for. -/
def escapes : List (Char × Char) := [
  ('0', '\x00'), ('a', '\x07'), ('b', '\x08'), ('t', '\t'), ('\t', '\t'), ('n', '\n'), ('v', '\x0b'),
  ('f', '\x0c'), ('r', '\r'), ('e', '\x1b'), (' ', ' '), ('"', '"'), ('/', '/'), ('\\', '\\'),
  ('N', '\u0085'), ('_', '\u00a0'), ('L', '\u2028'), ('P', '\u2029')]

/-- The number with these hexadecimal digits. -/
def hexadecimal? (ds : List Char) : Option Nat :=
  ds.foldlM (fun n d => (Text.Pattern.hexValue? d).map (16 * n + ·)) 0

/-- The character of the two halves of a pair. -/
def charOfPair? (high low : List Char) : Option Char := do
  let high ← hexadecimal? high
  let low ← hexadecimal? low
  if 0xd800 ≤ high ∧ high < 0xdc00 ∧ 0xdc00 ≤ low ∧ low < 0xe000 then
    some (Char.ofNat (0x10000 + (high - 0xd800) * 0x400 + (low - 0xdc00)))
  else none

/-- Reads the escapes of a text in double quotes. -/
def unescape? : List Char → Option (List Char)
  | [] => some []
  | '\\' :: 'x' :: a :: b :: rest => do
    return (← Text.Pattern.charOfHex? [a, b]) :: (← unescape? rest)
  | '\\' :: 'u' :: a :: b :: c :: d :: '\\' :: 'u' :: e :: f :: g :: h :: rest =>
    match charOfPair? [a, b, c, d] [e, f, g, h] with
    | some char => (unescape? rest).map (char :: ·)
    | none => do
      return (← Text.Pattern.charOfHex? [a, b, c, d]) ::
        (← unescape? ('\\' :: 'u' :: e :: f :: g :: h :: rest))
  | '\\' :: 'u' :: a :: b :: c :: d :: rest => do
    return (← Text.Pattern.charOfHex? [a, b, c, d]) :: (← unescape? rest)
  | '\\' :: 'U' :: a :: b :: c :: d :: e :: f :: g :: h :: rest => do
    return (← Text.Pattern.charOfHex? [a, b, c, d, e, f, g, h]) :: (← unescape? rest)
  | '\\' :: c :: rest => do return (← escapes.lookup c) :: (← unescape? rest)
  | c :: rest => do return c :: (← unescape? rest)

/-- The characters up to the closing double quote, escapes as they stand. -/
def spanDouble : Step (List Char)
  | [] => .error .malformed
  | '"' :: rest => .ok ([], rest)
  | '\\' :: c :: rest => (spanDouble rest).map fun (cs, rest) => ('\\' :: c :: cs, rest)
  | c :: rest => (spanDouble rest).map fun (cs, rest) => (c :: cs, rest)

/-- The characters up to the closing single quote; two quotes stand for one. -/
def spanSingle : Step (List Char)
  | [] => .error .malformed
  | '\'' :: '\'' :: rest => (spanSingle rest).map fun (cs, rest) => ('\'' :: cs, rest)
  | '\'' :: rest => .ok ([], rest)
  | c :: rest => (spanSingle rest).map fun (cs, rest) => (c :: cs, rest)

/-- Reads a text in quotes, if there is one in front. -/
def readQuoted? : List Char → Option (Except Fault (String × List Char))
  | '"' :: rest => some do
    let (cs, rest) ← spanDouble rest
    match unescape? (fold true (.blanks []) cs) with
    | some cs => return (String.ofList cs, rest)
    | none => .error .malformed
  | '\'' :: rest => some do
    let (cs, rest) ← spanSingle rest
    return (String.ofList (fold false (.blanks []) cs), rest)
  | _ => none

/-! ### Plain scalars -/

/-- Whether a character is a space, a line break or a tab. -/
def isBlankOrBreak (c : Char) : Bool := c == ' ' || c == '\n' || c == '\t'

/-- Whether what follows a colon ends the scalar before it; in flow style brackets do too. -/
def endsKey (flow : Bool) : List Char → Bool
  | [] => true
  | c :: _ => isBlankOrBreak c || (flow && ",[]\x7b\x7d".contains c)

/-- Whether a plain scalar may start with a character. -/
def startsPlain (flow : Bool) : List Char → Bool
  | [] => false
  | c :: rest =>
    !isBlankOrBreak c && (!"-?:,[]\x7b\x7d#&*!|>'\"%@`".contains c ||
      ((c == '-' || (!flow && (c == '?' || c == ':'))) && !rest.head?.all isBlankOrBreak))

/-- The characters of a plain scalar in flow style; `blank` says whether a blank stands in front. -/
def spanPlain (blank : Bool) : List Char → List Char × List Char
  | [] => ([], [])
  | c :: rest =>
    if ",?[]\x7b\x7d\t".contains c || (c == ':' && endsKey true rest) || (c == '#' && blank) then
      ([], c :: rest)
    else
      let (cs, rest) := spanPlain (isBlankOrBreak c) rest
      (c :: cs, rest)

/-- The text without the spaces and line breaks at its end. -/
def trimEnd (cs : List Char) : List Char := (cs.reverse.dropWhile isBlankOrBreak).reverse

/-- Reads a plain scalar in flow style. -/
def readPlain : Step Value := fun cs =>
  if startsPlain true cs then do
    let (content, rest) := spanPlain false cs
    let v ← scalar (String.ofList (fold false (.blanks []) (trimEnd content)))
    return (.scalar v, rest)
  else .error .malformed

/-! ### Collections -/

/-- Leaves out spaces, line breaks and comments. -/
def skip (inComment : Bool) : List Char → List Char
  | [] => []
  | c :: rest =>
    if c == '\n' then skip false rest
    else if inComment then skip true rest
    else if c == ' ' then skip false rest
    else if c == '#' then skip true rest
    else c :: rest

/-- A value as the key of an entry; lists and dictionaries are no keys. -/
def keyOf : Value → Except Fault Key
  | .scalar k => .ok k
  | _ => .error .malformed

mutual

/-- Reads a value in flow style; `fuel` above the number of characters is enough. -/
def readFlow (fuel : Nat) : Step Value := fun cs =>
  match fuel, skip false cs with
  | 0, _ => .error .malformed
  | fuel + 1, '[' :: rest => (readItems fuel rest).map fun (vs, rest) => (.list vs, rest)
  | fuel + 1, '\x7b' :: rest =>
    (readEntries fuel rest).map fun (es, rest) => (.dict (Entries.putAll [] es), rest)
  | _ + 1, cs => match readQuoted? cs with
    | some r => r.map fun (s, rest) => (.text s, rest)
    | none => readPlain cs

/-- Reads the items of a list up to its closing bracket. An entry among them is a dictionary. -/
def readItems (fuel : Nat) : Step (List Value) := fun cs =>
  match fuel, skip false cs with
  | 0, _ => .error .malformed
  | _ + 1, ']' :: rest => .ok ([], rest)
  | fuel + 1, cs => do
    let (v, rest) ← readFlow fuel cs
    let (item, rest) ← match skip false rest with
      | ':' :: rest => do
        let (w, rest) ← readValue fuel rest
        pure (Value.dict [(← keyOf v, w)], rest)
      | rest => pure (v, rest)
    match skip false rest with
    | ',' :: rest => (readItems fuel rest).map fun (vs, rest) => (item :: vs, rest)
    | ']' :: rest => return ([item], rest)
    | _ => .error .malformed

/-- Reads the entries of a dictionary up to its closing brace. -/
def readEntries (fuel : Nat) : Step (List (Key × Value)) := fun cs =>
  match fuel, skip false cs with
  | 0, _ => .error .malformed
  | _ + 1, '\x7d' :: rest => .ok ([], rest)
  | fuel + 1, cs => do
    let (v, rest) ← readFlow fuel cs
    let key ← keyOf v
    let (value, rest) ← match skip false rest with
      | ':' :: rest => readValue fuel rest
      | rest => pure (.null, rest)
    match skip false rest with
    | ',' :: rest => (readEntries fuel rest).map fun (es, rest) => ((key, value) :: es, rest)
    | '\x7d' :: rest => return ([(key, value)], rest)
    | _ => .error .malformed

/-- Reads the value of an entry after its colon; it may be left out. -/
def readValue (fuel : Nat) : Step Value := fun cs =>
  match fuel, skip false cs with
  | 0, _ => .error .malformed
  | fuel + 1, cs =>
    if cs.head?.any (fun c => ",]\x7d".contains c) then .ok (.null, cs) else readFlow fuel cs

end

end RowPipeline.Yaml
