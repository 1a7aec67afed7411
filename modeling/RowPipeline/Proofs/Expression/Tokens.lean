import RowPipeline.Expression.Lexer
import Mathlib.Data.List.TakeWhile
import Mathlib.Tactic.Common

/-!
# Token lists

Reading all tokens is reading one token and then the others: the four cases of a place in a text are
the end (`tokens_of_end`), a character that starts no token (`tokens_of_foreign`), a numeral of too
many digits (`tokens_of_long`) and a lexeme (`tokens_of_lexeme`); `reading_induction` goes through
them. So a token list holds one end mark, its last token (`tokens_shape`), and reading fails only at
a foreign character or a long numeral (`tokens_error`).
-/

namespace RowPipeline

open Text

namespace Lexer

/-- A bare name is ASCII digits and then a letter. -/
theorem takeName?_letter {cs run rest : List Char} (h : takeName? cs = some (run, rest)) :
    ∃ ds l after, (∀ c ∈ ds, isAsciiDigit c) ∧ isAsciiLetter l ∧ cs = ds ++ l :: after := by
  have hcs := List.takeWhile_append_dropWhile (p := isAsciiDigit) (l := cs)
  unfold takeName? at h
  split at h
  · simp at h
  · rename_i l after hd
    split at h
    · rename_i hl
      rw [hd] at hcs
      exact ⟨_, l, after, fun c hc => List.mem_takeWhile_imp hc, hl, hcs.symm⟩
    · simp at h

/-- The text does not go on with a digit. -/
def NoDigit (cs : List Char) : Prop := ∀ c ∈ cs.head?, isDigit c = false

theorem noDigit_dropWhile (cs : List Char) : NoDigit (cs.dropWhile isDigit) := by
  intro c hc
  have h := List.head?_dropWhile_not isDigit cs
  rw [Option.mem_def] at hc
  rw [hc] at h
  simpa using h

/-- **The two forms of a number**: digits, and digits, a point and digits. -/
theorem takeNumber?_cases {cs run rest : List Char} (h : takeNumber? cs = some (run, rest)) :
    ∃ d whole, (∀ c ∈ d :: whole, isDigit c) ∧ NoDigit rest ∧
      ((run = d :: whole ∧ cs = d :: whole ++ rest ∧ ∀ more, rest = '.' :: more → NoDigit more) ∨
      ∃ f fraction, (∀ c ∈ f :: fraction, isDigit c) ∧ run = d :: whole ++ '.' :: f :: fraction ∧
        cs = d :: whole ++ '.' :: f :: fraction ++ rest) := by
  have hcs := List.takeWhile_append_dropWhile (p := isDigit) (l := cs)
  have hdigits : ∀ c ∈ cs.takeWhile isDigit, isDigit c := fun c hc => List.mem_takeWhile_imp hc
  have hno := noDigit_dropWhile cs
  unfold takeNumber? at h
  split at h
  · simp at h
  · rename_i d whole after ht hd
    rw [ht, hd] at hcs
    rw [ht] at hdigits
    rw [hd] at hno
    have hafter := List.takeWhile_append_dropWhile (p := isDigit) (l := after)
    split at h
    · rename_i hf
      simp only [Option.some.injEq, Prod.mk.injEq] at h
      obtain ⟨rfl, rfl⟩ := h
      rw [hf, List.nil_append] at hafter
      refine ⟨d, whole, hdigits, hno, Or.inl ⟨rfl, hcs.symm, fun more hm => ?_⟩⟩
      obtain rfl : after = more := by simpa using hm
      rw [← hafter]
      exact noDigit_dropWhile after
    · rename_i f fraction hf
      simp only [Option.some.injEq, Prod.mk.injEq] at h
      obtain ⟨rfl, rfl⟩ := h
      have hfraction : ∀ c ∈ f :: fraction, isDigit c := by
        rw [← hf]
        exact fun c hc => List.mem_takeWhile_imp hc
      rw [hf] at hafter
      refine ⟨d, whole, hdigits, noDigit_dropWhile after, Or.inr ⟨f, fraction, hfraction, rfl, ?_⟩⟩
      calc cs = d :: whole ++ '.' :: after := hcs.symm
        _ = d :: whole ++ '.' :: (f :: fraction ++ after.dropWhile isDigit) := by rw [hafter]
        _ = d :: whole ++ '.' :: f :: fraction ++ after.dropWhile isDigit := by simp
  · rename_i d whole ht hpoint
    rw [ht] at hcs hdigits
    simp only [Option.some.injEq, Prod.mk.injEq] at h
    obtain ⟨rfl, rfl⟩ := h
    refine ⟨d, whole, hdigits, hno, Or.inl ⟨rfl, hcs.symm, fun more hm => ?_⟩⟩
    exact absurd hm (hpoint more)

theorem takeNumber?_eq_none {c : Char} {cs : List Char} (h : takeNumber? (c :: cs) = none) :
    isDigit c = false := by
  by_contra hd
  rw [Bool.not_eq_false] at hd
  unfold takeNumber? at h
  split at h
  · rename_i ht
    rw [List.takeWhile_cons_of_pos hd] at ht
    simp at ht
  · split at h <;> simp at h
  · simp at h

theorem operator?_ne_finish (c : Char) : operator? c ≠ some .finish := by
  unfold operator?
  split
  · simp
  · split
    · simp
    · split
      · simp
      · split <;> simp

/-- **The four patterns**: an operator, a quoted name, a bare name and a number, in this order. -/
theorem scan?_cases {c : Char} {cs : List Char} {m : Match} (h : scan? (c :: cs) = some m) :
    (∃ l, operator? c = some l ∧ m = ⟨[c], cs, some l⟩) ∨
    (operator? c = none ∧ (c = '"' ∨ c = '\'') ∧ ∃ run rest, takeQuoted? c cs = some (run, rest) ∧
      m = ⟨c :: run, rest, some (.quoted (unquote (c :: run)))⟩) ∨
    (operator? c = none ∧ ¬ (c = '"' ∨ c = '\'') ∧ ∃ run rest,
      takeName? (c :: cs) = some (run, rest) ∧
      m = ⟨run, rest, some (.name (String.ofList run))⟩) ∨
    (operator? c = none ∧ ¬ (c = '"' ∨ c = '\'') ∧ takeName? (c :: cs) = none ∧ ∃ run rest,
      takeNumber? (c :: cs) = some (run, rest) ∧
      m = ⟨run, rest, (literal? run).map .number⟩) := by
  simp only [scan?] at h
  split at h
  · rename_i l hop
    exact Or.inl ⟨l, hop, (Option.some.inj h).symm⟩
  · rename_i hop
    split at h
    · rename_i hq
      simp only [Option.map_eq_some_iff] at h
      obtain ⟨⟨run, rest⟩, ht, rfl⟩ := h
      exact Or.inr (Or.inl ⟨hop, hq, run, rest, ht, rfl⟩)
    · rename_i hq
      split at h
      · rename_i run rest hn
        exact Or.inr (Or.inr (Or.inl ⟨hop, hq, run, rest, hn, (Option.some.inj h).symm⟩))
      · rename_i hn
        simp only [Option.map_eq_some_iff] at h
        obtain ⟨⟨run, rest⟩, ht, rfl⟩ := h
        exact Or.inr (Or.inr (Or.inr ⟨hop, hq, hn, run, rest, ht, rfl⟩))

/-- Where no pattern matches there is no digit in front. -/
theorem scan?_eq_none {c : Char} {cs : List Char} (h : scan? (c :: cs) = none) :
    operator? c = none ∧ ((c = '"' ∨ c = '\'') ∨ takeNumber? (c :: cs) = none) := by
  simp only [scan?] at h
  split at h
  · simp at h
  · rename_i hop
    split at h
    · rename_i hq
      exact ⟨hop, Or.inl hq⟩
    · split at h
      · simp at h
      · simp only [Option.map_eq_none_iff] at h
        exact ⟨hop, Or.inr h⟩

/-- No pattern gives an end mark. -/
theorem scan?_ne_finish {cs : List Char} {m : Match} (h : scan? cs = some m) :
    m.lexeme? ≠ some .finish := by
  cases cs with
  | nil => simp [scan?] at h
  | cons c cs =>
    rcases scan?_cases h with ⟨l, hop, rfl⟩ | ⟨-, -, run, rest, -, rfl⟩ |
      ⟨-, -, run, rest, -, rfl⟩ | ⟨-, -, -, run, rest, -, rfl⟩
    · exact fun he => operator?_ne_finish c (hop.trans he)
    · simp
    · simp
    · simp

end Lexer

namespace Cursor

variable {c : Cursor} {ch : Char} {cs : List Char} {m : Lexer.Match} {l : Lexeme}

/-! ### One token -/

theorem next_of_end (h : c.rest.dropWhile isBlank = []) :
    c.next = (.ok ⟨.finish, c.skipBlanks.position⟩, c.skipBlanks) := by
  simp [next, skipBlanks, h]

theorem next_of_foreign (h : c.rest.dropWhile isBlank = ch :: cs)
    (hs : Lexer.scan? (ch :: cs) = none) :
    c.next = (.error (.lexical ch c.skipBlanks.position), c.skipBlanks) := by
  simp [next, skipBlanks, h, hs]

theorem next_of_long (h : c.rest.dropWhile isBlank = ch :: cs)
    (hs : Lexer.scan? (ch :: cs) = some m) (hl : m.lexeme? = none) :
    c.next = (.error .numeralTooLong, ⟨c.skipBlanks.position + m.run.length, m.rest⟩) := by
  simp [next, skipBlanks, h, hs, hl]

theorem next_of_lexeme (h : c.rest.dropWhile isBlank = ch :: cs)
    (hs : Lexer.scan? (ch :: cs) = some m) (hl : m.lexeme? = some l) :
    c.next =
      (.ok ⟨l, c.skipBlanks.position⟩, ⟨c.skipBlanks.position + m.run.length, m.rest⟩) := by
  simp [next, skipBlanks, h, hs, hl]

/-! ### All tokens -/

theorem tokens_eq (c : Cursor) : c.tokens = match c.next with
    | (.error failure, _) => .error failure
    | (.ok token, c') =>
      if token.lexeme = .finish then .ok [token] else (token :: ·) <$> c'.tokens := by
  rw [tokens]
  split
  · rename_i h; simp only [h]
  · rename_i h
    simp only [h]
    split <;> rfl

theorem tokens_of_end (h : c.rest.dropWhile isBlank = []) :
    c.tokens = .ok [⟨.finish, c.skipBlanks.position⟩] := by
  rw [tokens_eq, next_of_end h]
  simp

theorem tokens_of_foreign (h : c.rest.dropWhile isBlank = ch :: cs)
    (hs : Lexer.scan? (ch :: cs) = none) :
    c.tokens = .error (.lexical ch c.skipBlanks.position) := by
  rw [tokens_eq, next_of_foreign h hs]

theorem tokens_of_long (h : c.rest.dropWhile isBlank = ch :: cs)
    (hs : Lexer.scan? (ch :: cs) = some m) (hl : m.lexeme? = none) :
    c.tokens = .error .numeralTooLong := by
  rw [tokens_eq, next_of_long h hs hl]

theorem tokens_of_lexeme (h : c.rest.dropWhile isBlank = ch :: cs)
    (hs : Lexer.scan? (ch :: cs) = some m) (hl : m.lexeme? = some l) :
    c.tokens = (⟨l, c.skipBlanks.position⟩ :: ·) <$>
      (Cursor.mk (c.skipBlanks.position + m.run.length) m.rest).tokens := by
  have hne : l ≠ .finish := fun he => Lexer.scan?_ne_finish hs (by rw [hl, he])
  rw [tokens_eq, next_of_lexeme h hs hl]
  exact if_neg hne

/-- **Induction along the reading of a text.** -/
theorem reading_induction {motive : Cursor → Prop}
    (finish : ∀ c : Cursor, c.rest.dropWhile isBlank = [] → motive c)
    (foreign : ∀ (c : Cursor) ch cs, c.rest.dropWhile isBlank = ch :: cs →
      Lexer.scan? (ch :: cs) = none → motive c)
    (long : ∀ (c : Cursor) ch cs m, c.rest.dropWhile isBlank = ch :: cs →
      Lexer.scan? (ch :: cs) = some m → m.lexeme? = none → motive c)
    (lexeme : ∀ (c : Cursor) ch cs m l, c.rest.dropWhile isBlank = ch :: cs →
      Lexer.scan? (ch :: cs) = some m → m.lexeme? = some l →
      (∀ p, motive ⟨p, m.rest⟩) → motive c)
    (c : Cursor) : motive c := by
  induction hn : c.rest.length using Nat.strongRecOn generalizing c with
  | _ n ih =>
    subst hn
    rcases h : c.rest.dropWhile isBlank with _ | ⟨ch, cs⟩
    · exact finish c h
    · rcases hs : Lexer.scan? (ch :: cs) with _ | m
      · exact foreign c ch cs h hs
      · have hlt : m.rest.length < c.rest.length := by
          have hle : (c.rest.dropWhile isBlank).length ≤ c.rest.length :=
            (List.dropWhile_sublist isBlank).length_le
          have := Lexer.scan?_lt hs
          rw [h] at hle
          omega
        rcases hl : m.lexeme? with _ | l
        · exact long c ch cs m h hs hl
        · exact lexeme c ch cs m l h hs hl fun p => ih _ hlt _ rfl

/-- **A token list ends with its only end mark.** -/
theorem tokens_shape (c : Cursor) {all : List Token} (h : c.tokens = .ok all) :
    ∃ ts p, all = ts ++ [⟨.finish, p⟩] ∧ ∀ t ∈ ts, t.lexeme ≠ .finish := by
  induction c using reading_induction generalizing all with
  | finish c hd =>
    rw [tokens_of_end hd, Except.ok.injEq] at h
    exact ⟨[], _, by rw [← h]; rfl, by simp⟩
  | foreign c ch cs hd hs => rw [tokens_of_foreign hd hs] at h; simp at h
  | long c ch cs m hd hs hl => rw [tokens_of_long hd hs hl] at h; simp at h
  | lexeme c ch cs m l hd hs hl ih =>
    rw [tokens_of_lexeme hd hs hl] at h
    rcases hr : (Cursor.mk (c.skipBlanks.position + m.run.length) m.rest).tokens with e | more
    · rw [hr] at h; simp at h
    · rw [hr] at h
      simp only [Except.map_ok, Except.ok.injEq] at h
      obtain ⟨ts, p, rfl, hts⟩ := ih _ hr
      refine ⟨⟨l, c.skipBlanks.position⟩ :: ts, p, by rw [← h]; rfl, fun t ht => ?_⟩
      rcases List.mem_cons.mp ht with rfl | ht
      · exact fun he => Lexer.scan?_ne_finish hs (by rw [hl]; exact congrArg some he)
      · exact hts t ht

/-- Reading fails at a foreign character or at a numeral of too many digits. -/
theorem tokens_error (c : Cursor) {failure : Failure} (h : c.tokens = .error failure) :
    failure = .numeralTooLong ∨ ∃ ch p, failure = .lexical ch p := by
  induction c using reading_induction with
  | finish c hd => rw [tokens_of_end hd] at h; simp at h
  | foreign c ch cs hd hs =>
    rw [tokens_of_foreign hd hs, Except.error.injEq] at h
    exact Or.inr ⟨_, _, h.symm⟩
  | long c ch cs m hd hs hl =>
    rw [tokens_of_long hd hs hl, Except.error.injEq] at h
    exact Or.inl h.symm
  | lexeme c ch cs m l hd hs hl ih =>
    rw [tokens_of_lexeme hd hs hl] at h
    rcases hr : (Cursor.mk (c.skipBlanks.position + m.run.length) m.rest).tokens with e | more
    · rw [hr] at h
      simp only [Except.map_error, Except.error.injEq] at h
      exact ih _ (by rw [hr, h])
    · rw [hr] at h; simp at h

end Cursor

end RowPipeline
