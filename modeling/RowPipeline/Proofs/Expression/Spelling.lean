import Mathlib.Data.List.Chain
import Mathlib.Data.List.DropRight
import RowPipeline.Proofs.Expression.TokenEnds

/-!
# How a text spells its tokens

`Reads` says which lexemes the front of a text spells, blanks apart, without their positions. With
nothing behind the front it is what reading all tokens finds (`reads_iff`), so it decides the tree of
the text (`Reads.parse_iff`). Blanks around a text change nothing (`parse_blanks_iff`).

In a text that has a tree every operand is followed by an operator or by nothing (`Lexeme.Followed`).
What stands behind the front may then be exchanged, if that makes the last operand no longer and does
not join a word on (`Reads.replace`).
-/

namespace RowPipeline

open Text Expression

/-- The text `front`, with `rest` behind it, is read as the lexemes. -/
inductive Reads (rest : List Char) : List Char → List Lexeme → Prop
  | blanks {bs : List Char} (h : ∀ c ∈ bs, isBlank c) : Reads rest bs []
  | token {bs run more : List Char} {l : Lexeme} {ls : List Lexeme} (h : ∀ c ∈ bs, isBlank c)
      (hs : Lexer.scan? (run ++ (more ++ rest)) = some ⟨run, more ++ rest, some l⟩)
      (hr : Reads rest more ls) : Reads rest (bs ++ (run ++ more)) (l :: ls)

/-- Reading goes from an operand to an operator. -/
def Lexeme.Followed (l l' : Lexeme) : Prop := l.isOperand → l'.isOperator

theorem Lexeme.isChain_of_alternates : ∀ {ls : List Lexeme}, alternates ls → ls.IsChain Followed
  | [], _ => .nil
  | [_], _ => .singleton _
  | [operand, operator], h => by simp [alternates] at h
  | operand :: operator :: l :: ls, h => by
    simp only [alternates, Bool.and_eq_true] at h
    have hop : operator.isOperand = false := by
      cases operator <;> first | rfl | simp [isOperator] at h
    refine .cons_cons (fun _ => h.1.2) (.cons_cons (fun ho => ?_) (isChain_of_alternates h.2))
    rw [hop] at ho
    cases ho

namespace Reads

variable {cs bs rest rest' front front' : List Char} {ls ls' : List Lexeme} {l : Lexeme}

/-- A token without blanks in front. -/
theorem cons {run more : List Char}
    (hs : Lexer.scan? (run ++ (more ++ rest)) = some ⟨run, more ++ rest, some l⟩)
    (hr : Reads rest more ls) : Reads rest (run ++ more) (l :: ls) :=
  .token (fun c (hc : c ∈ []) => absurd hc List.not_mem_nil) hs hr

theorem blanks_of_nil (h : Reads rest front []) : ∀ c ∈ front, isBlank c := by
  cases h with
  | blanks h => exact h

/-! ### Putting texts together -/

theorem blanks_append (hb : ∀ c ∈ bs, isBlank c) (h : Reads rest front ls) :
    Reads rest (bs ++ front) ls := by
  have happend : ∀ {bs'}, (∀ c ∈ bs', isBlank c) → ∀ c ∈ bs ++ bs', isBlank c := by
    intro bs' hb' c hc
    rcases List.mem_append.mp hc with hc | hc
    · exact hb c hc
    · exact hb' c hc
  cases h with
  | blanks hb' => exact .blanks (happend hb')
  | token hb' hs hr =>
    rw [← List.append_assoc]
    exact .token (happend hb') hs hr

theorem append (h : Reads (front' ++ rest) front ls) (h' : Reads rest front' ls') :
    Reads rest (front ++ front') (ls ++ ls') := by
  induction h with
  | blanks hb => exact h'.blanks_append hb
  | @token bs run more l ls hb hs hr ih =>
    rw [List.append_assoc bs, List.append_assoc run]
    refine .token hb ?_ ih
    rwa [List.append_assoc more]

/-- The blanks in front may be left out. -/
theorem of_blanks_append (hb : ∀ c ∈ bs, isBlank c) (h : Reads rest (bs ++ front) ls) :
    Reads rest front ls := by
  generalize hf : bs ++ front = cs at h
  cases h with
  | blanks hb' => exact .blanks fun c hc => hb' c (by simp [← hf, hc])
  | @token bs' run more l ls hb' hs hr =>
    rcases List.append_eq_append_iff.mp hf with ⟨r, rfl, rfl⟩ | ⟨r, rfl, hrun⟩
    · exact .token (fun c hc => hb' c (by simp [hc])) hs hr
    · -- the run starts with no blank, so all blanks lie before it
      cases r with
      | nil =>
        obtain rfl : run ++ more = front := hrun
        exact .cons hs hr
      | cons c r =>
        cases run with
        | nil => exact absurd rfl (Lexer.scan?_append hs).2
        | cons c' run =>
          obtain ⟨rfl, -⟩ := List.cons.inj hrun
          have hblank := hb c' (by simp)
          rw [Lexer.isBlank_of_scan? hs] at hblank
          cases hblank

/-- The blanks behind may be counted to the rest. -/
theorem of_append_blanks (hb : ∀ c ∈ bs, isBlank c) (h : Reads rest (front ++ bs) ls) :
    Reads (bs ++ rest) front ls := by
  generalize hf : front ++ bs = cs at h
  induction h generalizing front with
  | blanks hb' => exact .blanks fun c hc => hb' c (by simp [← hf, hc])
  | @token bs' run more l ls hb' hs hr ih =>
    have hne := (Lexer.scan?_append hs).2
    rw [← List.append_assoc] at hf
    rcases List.append_eq_append_iff.mp hf with ⟨r, hrun, rfl⟩ | ⟨more', rfl, rfl⟩
    · rcases List.eq_nil_or_concat r with rfl | ⟨r, c, rfl⟩
      · have hrun : front = bs' ++ (run ++ []) := by simpa using hrun.symm
        rw [hrun]
        exact .token hb' hs (ih (List.nil_append more))
      · -- the run ends with no blank, so all blanks lie behind it
        have hlast : c ∈ run.getLast? := by
          have := congrArg List.getLast? hrun
          rw [List.getLast?_append, List.getLast?_eq_some_getLast hne] at this
          simpa [List.getLast?_eq_some_getLast hne] using this
        have hblank := hb c (by simp)
        rw [Lexer.isBlank_getLast? hs c hlast] at hblank
        cases hblank
    · rw [List.append_assoc]
      refine .token hb' ?_ (ih rfl)
      rwa [List.append_assoc] at hs

/-! ### Another text behind -/

/-- A number ends where something other than a digit, a letter or a point stands. -/
theorem endsNumber_cons {a : Char} (hdigit : isDigit a = false) (hletter : isAsciiLetter a = false)
    (hp : a ≠ '.') : Lexer.EndsNumber (a :: cs) := by
  refine ⟨?_, ?_, fun more he => absurd (List.cons.inj he).1 hp⟩
  · rintro c ⟨rfl⟩
    exact hdigit
  · rintro c ⟨rfl⟩
    exact hletter

theorem endsNumber_of_blank_or_sign {a : Char} (ha : isBlank a ∨ isSign a) :
    Lexer.EndsNumber (a :: cs) := by
  rcases ha with ha | ha
  · have hword := isAsciiWord_blank ha
    rw [isAsciiWord, Bool.or_eq_false_iff] at hword
    refine endsNumber_cons (isDigit_blank ha) hword.1 ?_
    rintro rfl
    exact absurd ha (by decide)
  · rcases isSign_iff.mp ha with rfl | rfl | rfl | rfl
    all_goals exact endsNumber_cons (by decide) (by decide) (by decide)

/-- A token ends in front of a blank. -/
theorem ends_of_blank {a : Char} (ha : isBlank a) : Lexer.Ends l (a :: cs) := by
  cases l with
  | name s =>
    refine Lexer.endsName_cons.mpr ⟨isAsciiWord_blank ha, ?_⟩
    rintro rfl
    exact absurd ha (by decide)
  | number a => exact endsNumber_of_blank_or_sign (Or.inl ha)
  | _ => trivial

/-- A token ends where the text ends. -/
theorem ends_nil : Lexer.Ends l [] := by
  cases l with
  | name s => rfl
  | number a => exact ⟨by simp [Lexer.NoDigit], by simp, by simp⟩
  | _ => trivial

theorem ends_of_blanks (hb : ∀ c ∈ bs, isBlank c) : Lexer.Ends l bs := by
  cases bs with
  | nil => exact ends_nil
  | cons c bs => exact ends_of_blank (hb c (by simp))

/-- Behind a blank or a sign it does not matter what follows, unless a word is joined on. -/
theorem ends_cons {a : Char} {run : List Char} (ha : isBlank a ∨ isSign a)
    (hw : Lexer.StartsWord rest' → Lexer.StartsWord rest)
    (hs : Lexer.scan? cs = some ⟨run, a :: rest, some l⟩) : Lexer.Ends l (a :: rest') := by
  cases l with
  | name s =>
    obtain ⟨-, -, hends⟩ := Lexer.scan?_name hs
    obtain ⟨hword, hjoin⟩ := Lexer.endsName_cons.mp hends
    exact Lexer.endsName_cons.mpr ⟨hword, fun he h => hjoin he (hw h)⟩
  | number a => exact endsNumber_of_blank_or_sign ha
  | _ => trivial

theorem startsWord_append (hw : Lexer.StartsWord rest' → Lexer.StartsWord rest)
    (h : Lexer.StartsWord (front ++ rest')) : Lexer.StartsWord (front ++ rest) := by
  cases front with
  | nil => exact hw h
  | cons c front => exact h

/-- Where an operator is read first, a blank or a sign stands in front. -/
theorem front_of_operator (h : Reads rest front (l :: ls)) (hl : l.isOperator) :
    ∃ a front', front = a :: front' ∧ (isBlank a ∨ isSign a) := by
  cases h with
  | @token bs run more _ _ hb hs hr =>
    cases bs with
    | cons b bs => exact ⟨b, _, rfl, Or.inl (hb b (by simp))⟩
    | nil =>
      obtain ⟨a, ha, rfl⟩ := Lexer.scan?_sign hs hl
      exact ⟨a, more, rfl, Or.inr ha⟩

/-- **Another text may stand behind** what was read, if it makes the last operand no longer and joins
no word on. -/
theorem replace (h : Reads rest front ls) (hc : ls.IsChain Lexeme.Followed)
    (hw : Lexer.StartsWord rest' → Lexer.StartsWord rest)
    (hlast : ∀ l ∈ ls.getLast?, l.isOperand → Lexer.Ends l rest') : Reads rest' front ls := by
  induction h with
  | blanks hb => exact .blanks hb
  | @token bs run more l ls hb hs hr ih =>
    have hrest : Reads rest' more ls := ih hc.tail fun l' hl' =>
      hlast l' (by simp [List.getLast?_cons, Option.mem_def.mp hl'])
    refine .token hb (Lexer.scan?_replace hs rfl ?_) hrest
    by_cases ho : l.isOperand
    · cases ls with
      | nil =>
        cases more with
        | nil => exact hlast l (by simp) ho
        | cons b more =>
          exact ends_cons (Or.inl (hr.blanks_of_nil b (by simp))) (startsWord_append hw) hs
      | cons l' ls =>
        obtain ⟨a, more, rfl, ha⟩ := hr.front_of_operator (hc.rel_head? rfl ho)
        exact ends_cons ha (startsWord_append hw) hs
    · cases l <;> trivial

/-! ### The tokens of a text -/

theorem dropWhile_blanks_append {m : Lexer.Match} (hb : ∀ c ∈ bs, isBlank c)
    (hs : Lexer.scan? cs = some m) : (bs ++ cs).dropWhile isBlank = cs := by
  rw [List.dropWhile_append_of_pos hb]
  cases cs with
  | nil => rfl
  | cons c cs => exact List.dropWhile_cons_of_neg (by simp [Lexer.isBlank_of_scan? hs])

/-- What is read are the tokens. -/
theorem tokens (h : Reads [] front ls) (p : Nat) :
    ∃ ts q, (Cursor.mk p front).tokens = .ok (ts ++ [⟨.finish, q⟩]) ∧ ts.map Token.lexeme = ls := by
  induction h generalizing p with
  | blanks hb =>
    rename_i bs
    have hd : (Cursor.mk p bs).rest.dropWhile isBlank = [] := List.dropWhile_eq_nil_iff.mpr hb
    exact ⟨[], _, Cursor.tokens_of_end hd, rfl⟩
  | @token bs run more l ls hb hs hr ih =>
    rw [List.append_nil] at hs
    obtain ⟨c, cs, hcs⟩ : ∃ c cs, run ++ more = c :: cs := by
      cases hcs : run ++ more with
      | nil => exact absurd (List.append_eq_nil_iff.mp hcs).1 (Lexer.scan?_append hs).2
      | cons c cs => exact ⟨c, cs, rfl⟩
    have hd : (Cursor.mk p (bs ++ (run ++ more))).rest.dropWhile isBlank = c :: cs := by
      rw [← hcs]
      exact dropWhile_blanks_append hb hs
    rw [hcs] at hs
    rw [Cursor.tokens_of_lexeme hd hs rfl]
    obtain ⟨ts, q, ht, rfl⟩ := ih ((Cursor.mk p (bs ++ (run ++ more))).skipBlanks.position + run.length)
    exact ⟨⟨l, _⟩ :: ts, q, by rw [ht]; rfl, rfl⟩

end Reads

namespace Cursor

variable {c : Cursor} {t : Token} {before after all : List Token}

/-- **The first of several tokens** is the match behind the blanks. -/
theorem tokens_cons (h : c.tokens = .ok (t :: all)) (hne : all ≠ []) :
    ∃ run rest, c.rest.dropWhile isBlank = run ++ rest ∧
      Lexer.scan? (run ++ rest) = some ⟨run, rest, some t.lexeme⟩ ∧
      t.position = c.skipBlanks.position ∧
      (Cursor.mk (c.skipBlanks.position + run.length) rest).tokens = .ok all := by
  rcases hd : c.rest.dropWhile isBlank with _ | ⟨ch, cs⟩
  · rw [tokens_of_end hd, Except.ok.injEq] at h
    exact absurd (List.cons.inj h).2.symm hne
  rcases hs : Lexer.scan? (ch :: cs) with _ | m
  · rw [tokens_of_foreign hd hs] at h
    cases h
  rcases hl : m.lexeme? with _ | l
  · rw [tokens_of_long hd hs hl] at h
    cases h
  rw [tokens_of_lexeme hd hs hl] at h
  obtain ⟨more, hm, he⟩ := map_eq_ok_iff.mp h
  obtain ⟨rfl, rfl⟩ := List.cons.inj he
  obtain ⟨run, rest, l?⟩ := m
  obtain rfl : l? = some l := hl
  have hcs : run ++ rest = ch :: cs := (Lexer.scan?_append hs).1
  exact ⟨run, rest, hcs.symm, by rw [hcs, hs], rfl, hm⟩

theorem tokens_singleton (h : c.tokens = .ok [t]) : c.rest.dropWhile isBlank = [] := by
  rcases hd : c.rest.dropWhile isBlank with _ | ⟨ch, cs⟩
  · rfl
  rcases hs : Lexer.scan? (ch :: cs) with _ | m
  · rw [tokens_of_foreign hd hs] at h
    cases h
  rcases hl : m.lexeme? with _ | l
  · rw [tokens_of_long hd hs hl] at h
    cases h
  rw [tokens_of_lexeme hd hs hl] at h
  obtain ⟨more, hm, he⟩ := map_eq_ok_iff.mp h
  obtain ⟨ts, q, rfl, -⟩ := tokens_shape _ hm
  simp at he

theorem takeWhile_of_dropWhile {cs : List Char} (h : cs.dropWhile isBlank = cs) :
    cs.takeWhile isBlank = [] := by
  have hcs := List.takeWhile_append_dropWhile (p := isBlank) (l := cs)
  rw [h] at hcs
  exact List.append_left_eq_self.mp hcs

@[simp] theorem skipBlanks_skipBlanks (c : Cursor) : c.skipBlanks.skipBlanks = c.skipBlanks := by
  have hdrop : (c.rest.dropWhile isBlank).dropWhile isBlank = c.rest.dropWhile isBlank :=
    List.dropWhile_idempotent _ _
  have htake := takeWhile_of_dropWhile hdrop
  simp only [skipBlanks, hdrop, htake, List.length_nil, Nat.add_zero]

/-- Reading starts behind the blanks. -/
theorem next_skipBlanks (c : Cursor) : c.skipBlanks.next = c.next := by
  rw [next, skipBlanks_skipBlanks, next]

theorem tokens_skipBlanks (c : Cursor) : c.skipBlanks.tokens = c.tokens := by
  rw [tokens_eq, tokens_eq, next_skipBlanks]

/-- **The text of the first tokens**: the others are read where it ends. -/
theorem tokens_front (h : c.tokens = .ok (before ++ after)) (hne : after ≠ []) :
    ∃ front rest, c.rest = front ++ rest ∧ Reads rest front (before.map Token.lexeme) ∧
      rest.dropWhile isBlank = rest ∧
      (Cursor.mk (c.position + front.length) rest).tokens = .ok after := by
  induction before generalizing c with
  | nil =>
    exact ⟨c.rest.takeWhile isBlank, c.rest.dropWhile isBlank,
      List.takeWhile_append_dropWhile.symm, .blanks fun d hd => List.mem_takeWhile_imp hd,
      List.dropWhile_idempotent _ _, (tokens_skipBlanks c).trans h⟩
  | cons t before ih =>
    obtain ⟨run, rest, hd, hs, -, hrest⟩ := tokens_cons h (by simp [hne])
    obtain ⟨front, rest', hfront, hr, hb, ha⟩ := ih hrest
    obtain rfl : rest = front ++ rest' := hfront
    refine ⟨c.rest.takeWhile isBlank ++ (run ++ front), rest', ?_, ?_, hb, ?_⟩
    · rw [List.append_assoc, List.append_assoc, ← hd, List.takeWhile_append_dropWhile]
    · exact .token (fun d hd => List.mem_takeWhile_imp hd) hs hr
    · rw [← ha]
      simp [skipBlanks, Nat.add_assoc]

/-- **The text around a token.** -/
theorem tokens_around (h : c.tokens = .ok (before ++ t :: after)) (hne : after ≠ []) :
    ∃ front run rest, c.rest = front ++ (run ++ rest) ∧
      Reads (run ++ rest) front (before.map Token.lexeme) ∧
      Lexer.scan? (run ++ rest) = some ⟨run, rest, some t.lexeme⟩ ∧
      t.position = c.position + front.length ∧
      (Cursor.mk (t.position + run.length) rest).tokens = .ok after := by
  obtain ⟨front, rest, hc, hr, hb, ht⟩ := tokens_front h (by simp)
  obtain ⟨run, rest', hd, hs, hp, ha⟩ := tokens_cons ht hne
  obtain rfl : rest = run ++ rest' := hb.symm.trans hd
  have hposition : t.position = c.position + front.length := by
    rw [hp, skipBlanks, takeWhile_of_dropWhile hd]
    rfl
  exact ⟨front, run, rest', hc, hr, hs, hposition, by rw [hp]; exact ha⟩

end Cursor

/-- **What is read are the tokens and nothing else.** -/
theorem reads_iff {c : Cursor} {ls : List Lexeme} : Reads [] c.rest ls ↔
    ∃ ts q, c.tokens = .ok (ts ++ [⟨.finish, q⟩]) ∧ ts.map Token.lexeme = ls := by
  constructor
  · exact fun h => h.tokens c.position
  · rintro ⟨ts, q, ht, rfl⟩
    obtain ⟨front, rest, hcs, hr, hb, ha⟩ := Cursor.tokens_front ht (by simp)
    have hrest : rest.dropWhile isBlank = [] := Cursor.tokens_singleton ha
    obtain rfl : rest = [] := hb.symm.trans hrest
    rw [hcs, List.append_nil]
    exact hr

namespace Reads

variable {cs : List Char} {ls : List Lexeme} {tree : Tree}

/-- **The tree of a text** is the grouped one with its lexemes in order. -/
theorem parse_iff (h : Reads [] cs ls) :
    Tree.parse cs = .ok tree ↔ tree.inOrder = some ls ∧ tree.grouped := by
  obtain ⟨ts, q, ht, rfl⟩ := h.tokens 0
  obtain ⟨ts', q', he, hne⟩ := Cursor.tokens_shape _ ht
  obtain ⟨rfl, -⟩ := List.append_inj' he rfl
  rw [Tree.parse_ok_iff ht]
  exact ⟨fun h => (Tree.ofTokens_sound h).symm, fun ⟨hi, hg⟩ => Tree.ofTokens_complete hne hg hi⟩

end Reads

/-- A text that has a tree is read as the lexemes of the tree. -/
theorem reads_of_parse {cs : List Char} {tree : Tree} (h : Tree.parse cs = .ok tree) :
    ∃ ls, Reads [] cs ls ∧ tree.inOrder = some ls ∧ tree.grouped ∧ ls.IsChain Lexeme.Followed := by
  obtain ⟨all, ht, -⟩ := bind_eq_ok_iff.mp h
  obtain ⟨ts, q, rfl, hne⟩ := Cursor.tokens_shape _ ht
  have hr : Reads [] (Cursor.start cs).rest (ts.map Token.lexeme) := reads_iff.mpr ⟨ts, q, ht, rfl⟩
  obtain ⟨hi, hg⟩ := hr.parse_iff.mp h
  have hall := (Tree.ofTokens_ok_iff hne).mp ⟨tree, (Tree.parse_ok_iff ht).mp h⟩
  exact ⟨_, hr, hi, hg, Lexeme.isChain_of_alternates hall⟩

/-! ### Trimmed texts -/

theorem exists_trimRight (cs : List Char) :
    ∃ bs : List Char, (∀ c ∈ bs, isBlank c) ∧ cs = trimRight cs ++ bs := by
  refine ⟨(cs.reverse.takeWhile isBlank).reverse, fun c hc => ?_, ?_⟩
  · exact List.mem_takeWhile_imp (List.mem_reverse.mp hc)
  · rw [trimRight, ← List.reverse_append, List.takeWhile_append_dropWhile, List.reverse_reverse]

/-- A text is its trimmed part between blanks. -/
theorem exists_trim (cs : List Char) : ∃ bs bs' : List Char, (∀ c ∈ bs, isBlank c) ∧
    (∀ c ∈ bs', isBlank c) ∧ cs = bs ++ (trim cs ++ bs') := by
  obtain ⟨bs', hb', he⟩ := exists_trimRight (trimLeft cs)
  refine ⟨cs.takeWhile isBlank, bs', fun c hc => List.mem_takeWhile_imp hc, hb', ?_⟩
  rw [trim, ← he, trimLeft, List.takeWhile_append_dropWhile]

variable {cs bs bs' : List Char} {ls : List Lexeme} {tree : Tree}

theorem reads_blanks_iff (hb : ∀ c ∈ bs, isBlank c) (hb' : ∀ c ∈ bs', isBlank c)
    (hc : ls.IsChain Lexeme.Followed) : Reads [] (bs ++ (cs ++ bs')) ls ↔ Reads [] cs ls := by
  have hno : ¬ Lexer.StartsWord bs' := by
    rintro ⟨c, hc, hw⟩
    rw [isAsciiWord_blank (hb' c (List.mem_of_mem_head? hc))] at hw
    cases hw
  constructor
  · intro h
    refine ((h.of_blanks_append hb).of_append_blanks hb').replace hc ?_ ?_
    · rintro ⟨c, hc, -⟩
      cases hc
    · exact fun _ _ _ => Reads.ends_of_blanks (by simp)
  · intro h
    refine Reads.blanks_append hb ?_
    rw [← List.append_nil ls]
    refine Reads.append (h.replace hc ?_ ?_) (.blanks hb')
    · rw [List.append_nil]
      exact fun hw => absurd hw hno
    · rw [List.append_nil]
      exact fun _ _ _ => Reads.ends_of_blanks hb'

/-- **Blanks around a text change nothing.** -/
theorem parse_blanks_iff (hb : ∀ c ∈ bs, isBlank c) (hb' : ∀ c ∈ bs', isBlank c) :
    Tree.parse (bs ++ (cs ++ bs')) = .ok tree ↔ Tree.parse cs = .ok tree := by
  constructor
  · intro h
    obtain ⟨ls, hr, hi, hg, hc⟩ := reads_of_parse h
    exact ((reads_blanks_iff hb hb' hc).mp hr).parse_iff.mpr ⟨hi, hg⟩
  · intro h
    obtain ⟨ls, hr, hi, hg, hc⟩ := reads_of_parse h
    exact ((reads_blanks_iff hb hb' hc).mpr hr).parse_iff.mpr ⟨hi, hg⟩

theorem parse_trim_iff : Tree.parse (trim cs) = .ok tree ↔ Tree.parse cs = .ok tree := by
  obtain ⟨bs, bs', hb, hb', he⟩ := exists_trim cs
  conv_rhs => rw [he]
  exact (parse_blanks_iff hb hb').symm

theorem parse_trimRight_iff : Tree.parse (trimRight cs) = .ok tree ↔ Tree.parse cs = .ok tree := by
  obtain ⟨bs, hb, he⟩ := exists_trimRight cs
  conv_rhs => rw [he]
  exact (parse_blanks_iff (fun c (hc : c ∈ []) => absurd hc List.not_mem_nil) hb).symm

end RowPipeline
