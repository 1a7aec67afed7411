import RowPipeline.Text.Pattern

/-!
# The notation of patterns

Patterns are written as regular expressions: characters, `.`, classes in brackets, the escapes of classes
and of single characters, the anchors `^` and `$`, groups in parentheses, `|`, and the repetitions `*`,
`+`, `?` and `\x7bm,n\x7d`. `read?` gives none for a text that is not well-formed: an open group or
class, a repetition of nothing or of an anchor, two repetitions in a row, bounds in the wrong order.
-/

namespace RowPipeline.Text.Pattern

/-! ### Symbols -/

/-- A character of the notation after its escapes are read. -/
inductive Symbol where
  /-- A character that may have a meaning in the notation. -/
  | plain (c : Char)
  /-- A character that stands for itself. -/
  | literal (c : Char)
  /-- A letter after a backslash that stands for a class or an anchor. -/
  | escape (c : Char)
  deriving DecidableEq

/-- The value of a hexadecimal digit. -/
def hexValue? (c : Char) : Option Nat :=
  if isAsciiDigit c then some (c.toNat - '0'.toNat)
  else if 'a' ≤ c && c ≤ 'f' then some (c.toNat - 'a'.toNat + 10)
  else if 'A' ≤ c && c ≤ 'F' then some (c.toNat - 'A'.toNat + 10)
  else none

/-- The character whose code has these hexadecimal digits. -/
def charOfHex? (ds : List Char) : Option Char := do
  let n ← ds.foldlM (fun n d => (hexValue? d).map (16 * n + ·)) 0
  if h : n.isValidChar then some (Char.ofNatAux n h) else none

/-- What a backslash and a character stand for; a letter or digit without a meaning is refused. -/
def symbolOfEscape? (c : Char) : Option Symbol :=
  if "dDsSwWAZbB".contains c then some (.escape c)
  else match ("ntrfva0".toList.zip ['\n', '\t', '\r', '\x0c', '\x0b', '\x07', '\x00']).lookup c with
    | some value => some (.literal value)
    | none => if isAsciiWord c then none else some (.literal c)

/-- Reads the escapes of a text. -/
def symbols? : List Char → Option (List Symbol)
  | [] => some []
  | '\\' :: 'x' :: a :: b :: rest => do
    return .literal (← charOfHex? [a, b]) :: (← symbols? rest)
  | '\\' :: 'u' :: a :: b :: c :: d :: rest => do
    return .literal (← charOfHex? [a, b, c, d]) :: (← symbols? rest)
  | '\\' :: 'U' :: a :: b :: c :: d :: e :: f :: g :: h :: rest => do
    return .literal (← charOfHex? [a, b, c, d, e, f, g, h]) :: (← symbols? rest)
  | ['\\'] => none
  | '\\' :: c :: rest => do return (← symbolOfEscape? c) :: (← symbols? rest)
  | c :: rest => do return .plain c :: (← symbols? rest)

/-! ### Classes -/

/-- The class of an escape letter. -/
def classOfEscape? : Char → Option CharClass
  | 'd' => some (.digit true)
  | 'D' => some (.digit false)
  | 's' => some (.blank true)
  | 'S' => some (.blank false)
  | 'w' => some (.word true)
  | 'W' => some (.word false)
  | _ => none

/-- The single character that a symbol stands for in a class. -/
def Symbol.member? : Symbol → Option Char
  | .plain c => some c
  | .literal c => some c
  | .escape c => if c = 'b' then some '\x08' else none

/-- The class that a symbol stands for in a class. -/
def Symbol.class? : Symbol → Option CharClass
  | .escape c => (classOfEscape? c).or ((Symbol.escape c).member?.map fun c => .range c c)
  | s => s.member?.map fun c => .range c c

/-- Reads the members of a class up to its closing bracket. -/
def readMembers (done : List CharClass) : List Symbol → Option (List CharClass × List Symbol)
  | [] => none
  | .plain ']' :: rest => some (done, rest)
  | s :: .plain '-' :: .plain ']' :: rest => do
    return (done ++ [← s.class?, .range '-' '-'], rest)
  | s :: .plain '-' :: t :: rest => do
    let first ← s.member?
    let last ← t.member?
    if first ≤ last then readMembers (done ++ [.range first last]) rest else none
  | s :: rest => do readMembers (done ++ [← s.class?]) rest

/-- Reads a class after its opening bracket. A closing bracket in front is a member. -/
def readClass (cs : List Symbol) : Option (Pattern × List Symbol) :=
  let (negated, cs) := match cs with
    | .plain '^' :: rest => (true, rest)
    | cs => (false, cs)
  let cs := match cs with
    | .plain ']' :: rest => .literal ']' :: rest
    | cs => cs
  (readMembers [] cs).map fun (classes, rest) => (one ⟨classes, negated⟩, rest)

/-! ### Repetitions -/

/-- How often something is repeated: at least `least` times, and at most `most` times if that is given. -/
structure Bounds where
  least : Nat
  most : Option Nat
  deriving DecidableEq

/-- Several copies of a pattern. -/
def copies (p : Pattern) : Nat → Pattern
  | 0 => empty
  | n + 1 => p.andThen (copies p n)

/-- Up to so many copies of a pattern. -/
def upTo (p : Pattern) : Nat → Pattern
  | 0 => empty
  | n + 1 => orElse empty (p.andThen (upTo p n))

/-- A repeated pattern. -/
def repeated (p : Pattern) (b : Bounds) : Pattern :=
  (copies p b.least).andThen (match b.most with
    | none => many p
    | some most => upTo p (most - b.least))

/-- The digits in front, and the rest. -/
def spanNumber (cs : List Symbol) : List Char × List Symbol :=
  let isNumber : Symbol → Bool := fun s => match s with
    | .plain c => isAsciiDigit c
    | _ => false
  ((cs.takeWhile isNumber).filterMap Symbol.member?, cs.dropWhile isNumber)

/-- The bounds in braces after an opening brace; none if the brace stands for itself. -/
def readBraces (cs : List Symbol) : Option (Bounds × List Symbol) :=
  let (least, rest) := spanNumber cs
  let number (ds : List Char) : Option Nat := if ds.isEmpty then none else some (natOfDigits ds)
  match rest with
  | .plain ',' :: rest =>
    let (most, rest) := spanNumber rest
    match rest with
    | .plain '\x7d' :: rest => some (⟨(number least).getD 0, number most⟩, rest)
    | _ => none
  | .plain '\x7d' :: rest => (number least).map fun n => (⟨n, some n⟩, rest)
  | _ => none

/-- The repetition sign in front, if there is one. -/
def readBounds : List Symbol → Option (Bounds × List Symbol)
  | .plain '*' :: rest => some (⟨0, none⟩, rest)
  | .plain '+' :: rest => some (⟨1, none⟩, rest)
  | .plain '?' :: rest => some (⟨0, some 1⟩, rest)
  | .plain '\x7b' :: rest => readBraces rest
  | _ => none

/-- Applies the repetition sign in front to a pattern. A question mark after the sign asks for the
shortest match, which is a match all the same. -/
def readRepetition (p : Pattern) (cs : List Symbol) : Option (Pattern × List Symbol) :=
  match readBounds cs with
  | none => some (p, cs)
  | some (b, rest) =>
    let rest := match rest with
      | .plain '?' :: rest => rest
      | rest => rest
    if (readBounds rest).isSome then none
    else if b.most.any (· < b.least) then none
    else some (repeated p b, rest)

/-- Applies the repetition sign in front to a single symbol's pattern; a bare anchor is not repeated. -/
def readRepetitionOfSymbol (p : Pattern) (cs : List Symbol) : Option (Pattern × List Symbol) :=
  match p with
  | anchor _ => if (readBounds cs).isSome then none else some (p, cs)
  | p => readRepetition p cs

/-! ### Patterns -/

/-- The pattern of a symbol outside of a class; a repetition sign has none. -/
def ofSymbol? (s : Symbol) (rest : List Symbol) : Option Pattern :=
  match s with
  | .literal c => some (one (.single c))
  | .escape 'A' => some (anchor .start)
  | .escape 'Z' => some (anchor .finish)
  | .escape 'b' => some (anchor (.wordEdge true))
  | .escape 'B' => some (anchor (.wordEdge false))
  | .escape c => (classOfEscape? c).map fun cls => one ⟨[cls], false⟩
  | .plain '.' => some (one .visible)
  | .plain '^' => some (anchor .start)
  | .plain '$' => some (anchor .lastLine)
  | .plain c => if (readBounds (.plain c :: rest)).isSome then none else some (one (.single c))

/-- Reads alternatives up to the end of a group: `before` holds the finished ones and `done` what is read
of the next one. Every step takes a symbol, so `fuel` above the number of symbols is enough. -/
def readGroup (fuel : Nat) (before done : Pattern) (cs : List Symbol) : Option (Pattern × List Symbol) :=
  match fuel, cs with
  | 0, _ => none
  | _ + 1, [] => some (before.orElse done, [])
  | _ + 1, .plain ')' :: rest => some (before.orElse done, .plain ')' :: rest)
  | fuel + 1, .plain '|' :: rest => readGroup fuel (before.orElse done) empty rest
  | fuel + 1, .plain '(' :: rest => do
    let inside := match rest with
      | .plain '?' :: .plain ':' :: rest => rest
      | rest => rest
    match ← readGroup fuel nothing empty inside with
    | (p, .plain ')' :: rest) =>
      let (p, rest) ← readRepetition p rest
      readGroup fuel before (done.andThen p) rest
    | _ => none
  | fuel + 1, .plain '[' :: rest => do
    let (p, rest) ← readClass rest
    let (p, rest) ← readRepetition p rest
    readGroup fuel before (done.andThen p) rest
  | fuel + 1, s :: rest => do
    let (p, rest) ← readRepetitionOfSymbol (← ofSymbol? s rest) rest
    readGroup fuel before (done.andThen p) rest

/-- The pattern that a text denotes. -/
def read? (s : String) : Option Pattern := do
  let cs ← symbols? s.toList
  match ← readGroup (cs.length + 1) nothing empty cs with
  | (p, []) => some p
  | _ => none

end RowPipeline.Text.Pattern
