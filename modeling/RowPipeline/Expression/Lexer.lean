import RowPipeline.Failure

/-!
# Reading tokens

At each position the longest run that one of the token patterns matches becomes a token: an operator
sign, a quoted name, a bare name or a number. A bare name is a run of ASCII letters and digits with at
least one letter, continued after single hyphens, so `2a` and `carbon-product` are names; a number is a
run of digits of any script, with a fraction or without. Blanks separate tokens.

Main statements: a pattern splits its input into its run, which is not empty, and the rest
(`scan?_append`), so reading ends (`Cursor.next_lt`).
-/

namespace RowPipeline

open Text

namespace Lexer

/-! ### Patterns -/

/-- Words joined by single separators, once the first word has begun: the run and the rest. -/
def spanJoined (separator word : Char → Bool) : List Char → List Char × List Char
  | [] => ([], [])
  | [c] => if word c then ([c], []) else ([], [c])
  | c :: d :: rest =>
    if word c then
      let (run, after) := spanJoined separator word (d :: rest)
      (c :: run, after)
    else if separator c && word d then
      let (run, after) := spanJoined separator word rest
      (c :: d :: run, after)
    else ([], c :: d :: rest)

/-- A bare name: digits, a letter, and what joins on. -/
def takeName? (cs : List Char) : Option (List Char × List Char) :=
  match cs.dropWhile isAsciiDigit with
  | [] => none
  | c :: rest =>
    if isAsciiLetter c then
      let (run, after) := spanJoined (· == '-') isAsciiWord rest
      some (cs.takeWhile isAsciiDigit ++ c :: run, after)
    else none

/-- A name in quotes, at least one character long. -/
def takeQuoted? (quote : Char) (cs : List Char) : Option (List Char × List Char) :=
  match cs.takeWhile (· != quote), cs.dropWhile (· != quote) with
  | [], _ => none
  | _ :: _, [] => none
  | c :: name, q :: rest => some (c :: name ++ [q], rest)

/-- Digits, and a point with digits if both follow. -/
def takeNumber? (cs : List Char) : Option (List Char × List Char) :=
  match cs.takeWhile isDigit, cs.dropWhile isDigit with
  | [], _ => none
  | d :: whole, '.' :: rest =>
    match rest.takeWhile isDigit with
    | [] => some (d :: whole, '.' :: rest)
    | f :: fraction => some (d :: whole ++ '.' :: f :: fraction, rest.dropWhile isDigit)
  | d :: whole, rest => some (d :: whole, rest)

/-- The number that a literal denotes: a whole number of bounded length, or the nearest double. -/
def literal? (cs : List Char) : Option Number :=
  if cs.contains '.' then
    let fraction := (cs.dropWhile (· != '.')).drop 1
    some (.float (.ofDecimal false (natOfDigits (cs.filter (· != '.'))) (-fraction.length)))
  else (Numeral.ofDigits? cs).map fun n => .int n

/-- The operator of a sign. -/
def operator? (c : Char) : Option Lexeme :=
  if c = '+' then some .plus
  else if c = '-' then some .minus
  else if c = '*' then some .times
  else if c = '/' then some .divide
  else none

/-- What a pattern found at the front of a text. -/
structure Match where
  run : List Char
  rest : List Char
  /-- The lexeme; none if the run is a numeral of too many digits. -/
  lexeme? : Option Lexeme

/-- The text between the quotes of a quoted name. -/
def unquote (run : List Char) : String := String.ofList (run.drop 1).dropLast

/-- The match at the front of a text that does not start with a blank. -/
def scan? : List Char → Option Match
  | [] => none
  | c :: cs =>
    match operator? c with
    | some lexeme => some ⟨[c], cs, some lexeme⟩
    | none =>
      if c = '"' ∨ c = '\'' then
        (takeQuoted? c cs).map fun (run, rest) => ⟨c :: run, rest, some (.quoted (unquote (c :: run)))⟩
      else match takeName? (c :: cs) with
        | some (run, rest) => some ⟨run, rest, some (.name (String.ofList run))⟩
        | none => (takeNumber? (c :: cs)).map fun (run, rest) => ⟨run, rest, (literal? run).map .number⟩

/-! ### What the patterns leave -/

theorem spanJoined_append (separator word : Char → Bool) : ∀ cs : List Char,
    (spanJoined separator word cs).1 ++ (spanJoined separator word cs).2 = cs
  | [] => rfl
  | [c] => by by_cases h : word c <;> simp [spanJoined, h]
  | c :: d :: rest => by
    have ih1 := spanJoined_append separator word (d :: rest)
    have ih2 := spanJoined_append separator word rest
    by_cases h : word c
    · simp [spanJoined, h, ih1]
    · by_cases h' : (separator c && word d) = true
      · simp only [spanJoined, h, h', if_true]; simp [ih2]
      · simp [spanJoined, h, h']

theorem takeName?_append {cs run rest : List Char} (h : takeName? cs = some (run, rest)) :
    run ++ rest = cs ∧ run ≠ [] := by
  unfold takeName? at h
  split at h
  · simp at h
  · rename_i c after hd
    split at h
    · simp only [Option.some.injEq, Prod.mk.injEq] at h
      obtain ⟨rfl, rfl⟩ := h
      refine ⟨?_, by simp⟩
      have := spanJoined_append (· == '-') isAsciiWord after
      rw [List.append_assoc, List.cons_append, this, ← hd, List.takeWhile_append_dropWhile]
    · simp at h

theorem takeQuoted?_append {q : Char} {cs run rest : List Char}
    (h : takeQuoted? q cs = some (run, rest)) : run ++ rest = cs := by
  unfold takeQuoted? at h
  split at h
  · simp at h
  · simp at h
  · rename_i c name q' after ht hd
    simp only [Option.some.injEq, Prod.mk.injEq] at h
    obtain ⟨rfl, rfl⟩ := h
    rw [List.append_assoc, ← ht, List.singleton_append, ← hd, List.takeWhile_append_dropWhile]

theorem takeNumber?_append {cs run rest : List Char} (h : takeNumber? cs = some (run, rest)) :
    run ++ rest = cs ∧ run ≠ [] := by
  have hcs := List.takeWhile_append_dropWhile (p := isDigit) (l := cs)
  unfold takeNumber? at h
  split at h
  · simp at h
  · rename_i d whole after ht hd
    rw [ht, hd] at hcs
    split at h
    · simp only [Option.some.injEq, Prod.mk.injEq] at h
      obtain ⟨rfl, rfl⟩ := h
      exact ⟨hcs, by simp⟩
    · rename_i f fraction hf
      have hafter := List.takeWhile_append_dropWhile (p := isDigit) (l := after)
      rw [hf, List.cons_append] at hafter
      simp only [Option.some.injEq, Prod.mk.injEq] at h
      obtain ⟨rfl, rfl⟩ := h
      exact ⟨by simpa [hafter] using hcs, by simp⟩
  · rename_i d whole ht _
    rw [ht] at hcs
    simp only [Option.some.injEq, Prod.mk.injEq] at h
    obtain ⟨rfl, rfl⟩ := h
    exact ⟨hcs, by simp⟩

/-- A match splits the text into its run and the rest, and the run is not empty. -/
theorem scan?_append {cs : List Char} {m : Match} (h : scan? cs = some m) :
    m.run ++ m.rest = cs ∧ m.run ≠ [] := by
  unfold scan? at h
  split at h
  · simp at h
  · rename_i c cs
    split at h
    · simp only [Option.some.injEq] at h
      subst h; simp
    · split at h
      · simp only [Option.map_eq_some_iff] at h
        obtain ⟨⟨run, rest⟩, hq, rfl⟩ := h
        exact ⟨by simp [takeQuoted?_append hq], by simp⟩
      · split at h
        · rename_i run rest hn
          simp only [Option.some.injEq] at h
          subst h
          exact takeName?_append hn
        · simp only [Option.map_eq_some_iff] at h
          obtain ⟨⟨run, rest⟩, hn, rfl⟩ := h
          exact takeNumber?_append hn

theorem scan?_lt {cs : List Char} {m : Match} (h : scan? cs = some m) :
    m.rest.length < cs.length := by
  obtain ⟨hm, hne⟩ := scan?_append h
  have := List.length_pos_iff.2 hne
  rw [← hm, List.length_append]
  omega

end Lexer

/-! ### Reading one token after the other -/

/-- A place in a text: the position of the next character, and what is left. -/
structure Cursor where
  position : Nat
  rest : List Char

namespace Cursor

/-- The start of a text. -/
def start (cs : List Char) : Cursor := ⟨0, cs⟩

/-- The place after the blanks. -/
def skipBlanks (c : Cursor) : Cursor :=
  ⟨c.position + (c.rest.takeWhile isBlank).length, c.rest.dropWhile isBlank⟩

/-- The next token and the place after it. At the end of the text every call gives the end mark; at a
character that starts no token every call fails there. -/
def next (c : Cursor) : Except Failure Token × Cursor :=
  let c := c.skipBlanks
  match c.rest with
  | [] => (.ok ⟨.finish, c.position⟩, c)
  | ch :: _ =>
    match Lexer.scan? c.rest with
    | none => (.error (.lexical ch c.position), c)
    | some m =>
      (m.lexeme?.elim (.error .numeralTooLong) fun lexeme => .ok ⟨lexeme, c.position⟩,
        ⟨c.position + m.run.length, m.rest⟩)

theorem next_lt {c : Cursor} {t : Token} {c' : Cursor} (h : c.next = (.ok t, c'))
    (ht : t.lexeme ≠ .finish) : c'.rest.length < c.rest.length := by
  have hd : (c.rest.dropWhile isBlank).length ≤ c.rest.length :=
    (List.dropWhile_sublist isBlank).length_le
  unfold next at h
  simp only [skipBlanks] at h
  split at h
  · simp only [Prod.mk.injEq, Except.ok.injEq] at h
    exact absurd (by rw [← h.1]) ht
  · split at h
    · simp at h
    · rename_i m hm
      simp only [Prod.mk.injEq] at h
      have := Lexer.scan?_lt hm
      rw [← h.2]
      simp only
      omega

/-- All tokens from a place on, the end mark last. -/
def tokens (c : Cursor) : Except Failure (List Token) :=
  match h : c.next with
  | (.error failure, _) => .error failure
  | (.ok token, c') =>
    if ht : token.lexeme = .finish then .ok [token]
    else
      have := next_lt h ht
      (token :: ·) <$> c'.tokens
termination_by c.rest.length

end Cursor

/-- The tokens of a text. -/
def tokenize (cs : List Char) : Except Failure (List Token) := (Cursor.start cs).tokens

end RowPipeline
