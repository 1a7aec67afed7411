import RowPipeline.Proofs.Expression.Magnitude
import RowPipeline.Proofs.Expression.NumberTexts

/-!
# Reading what was rendered

The text of a tree is the spelling of its lexemes in order, with nothing in between (`Tree.render_of_inOrder`).
A lexeme that was read is read back from its spelling, wherever a text follows that makes it no longer
(`readsBack_of_scan?`); that is not so for a decimal, which may be written in another form, nor for a name that
holds a double quote. In the text of a tree an operand is followed by a sign or by nothing, and a sign makes only
a bare name longer, and only if it is a hyphen. So without a minus behind a bare name every lexeme is read back in
its place (`reads_spellings`), and the tree is the one that was rendered (`parse_render`).
-/

namespace RowPipeline

open Text Expression

/-! ### Spellings -/

/-- How a lexeme is written in the text of a tree. -/
def Lexeme.spelling : Lexeme → List Char
  | number a => (a.text?.getD "").toList
  | name s => s.toList
  | quoted s => '"' :: (s.toList ++ ['"'])
  | plus => ['+']
  | minus => ['-']
  | times => ['*']
  | divide => ['/']
  | finish => []

/-- The spelling is read as the lexeme, whatever follows that makes it no longer. -/
def Lexeme.ReadsBack (l : Lexeme) : Prop :=
  ∀ rest, Lexer.Ends l rest → Lexer.scan? (l.spelling ++ rest) = some ⟨l.spelling, rest, some l⟩

/-- A minus behind a bare name would join on what follows. -/
def Lexeme.NoHyphen (l l' : Lexeme) : Prop := ∀ s, l = .name s → l' ≠ .minus

variable {cs run rest : List Char} {l : Lexeme} {ls : List Lexeme} {t tree : Tree} {s : String}

theorem spelling_operator {op : Operator} (h : Lexeme.ofOperator? op = some l) :
    op.symbol.toList = l.spelling := by
  cases op with
  | other symbol => cases h
  | _ =>
    obtain rfl := Option.some.inj h
    rfl

theorem Number.print_eq_ok_iff {a : Number} : a.print = .ok s ↔ a.text? = some s := by
  rw [print]
  cases a.text? <;> simp

/-- **The text of a tree** is the spelling of its lexemes. -/
theorem Tree.render_of_inOrder (ho : t.inOrder = some ls) (hlong : ¬ t.HoldsLong) :
    ∃ text, t.render = .ok text ∧ text.toList = ls.flatMap Lexeme.spelling := by
  induction t generalizing ls with
  | literal a =>
    obtain rfl : [Lexeme.number a] = ls := Option.some.inj ho
    obtain ⟨text, ht⟩ := a.print_ok_iff.mpr hlong
    refine ⟨text, ht, ?_⟩
    simp [Lexeme.spelling, Number.print_eq_ok_iff.mp ht]
  | name text quoted =>
    obtain rfl : [if quoted then Lexeme.quoted text else .name text] = ls := Option.some.inj ho
    refine ⟨_, rfl, ?_⟩
    cases quoted <;> simp [Lexeme.spelling]
  | binary op left right ihl ihr =>
    obtain ⟨ll, l, lr, hl, hop, hr, rfl⟩ := inOrder_binary ho
    obtain ⟨hleft, hright⟩ := not_or.mp hlong
    obtain ⟨textl, hl, htl⟩ := ihl hl hleft
    obtain ⟨textr, hr, htr⟩ := ihr hr hright
    refine ⟨_, bind_eq_ok_iff.mpr ⟨textl, hl, bind_eq_ok_iff.mpr ⟨textr, hr, rfl⟩⟩, ?_⟩
    simp [htl, htr, spelling_operator hop]
  | hole => cases ho

/-! ### Lexemes that are read back -/

theorem readsBack_number {m : Nat} (h : m < Numeral.bound) : (Lexeme.number (.int m)).ReadsBack := by
  intro rest he
  have hspelling : (Lexeme.number (.int m)).spelling = Nat.toDigits 10 m := by
    have htext : Numeral.text? m = some (String.ofList (Nat.toDigits 10 m)) := by
      simp [Numeral.text?, h, Int.not_lt.mpr (Int.natCast_nonneg m)]
    rw [Lexeme.spelling, Number.text?, Number.normalize_int, Number.rawText?, htext, Option.getD_some,
      String.toList_ofList]
  rw [hspelling]
  exact Lexer.scan?_replace (scan?_toDigits h) rfl he

theorem ne_empty_of_scan? (h : Lexer.scan? cs = some ⟨run, rest, some (.quoted s)⟩) : s ≠ "" := by
  rintro rfl
  obtain ⟨q, hq, -, rfl⟩ := Lexer.scan?_quoted h
  rw [← (Lexer.scan?_append h).1] at h
  rcases hq with rfl | rfl
  all_goals simp [Lexer.scan?, Lexer.operator?, Lexer.takeQuoted?] at h

/-- **What was read is read back**, if it is neither a decimal nor a name that holds a double quote. -/
theorem readsBack_of_scan? (h : Lexer.scan? cs = some ⟨run, rest, some l⟩)
    (hint : ∀ a, l = .number a → ∃ n, a = .int n) (hquote : ∀ s, l = .quoted s → '"' ∉ s.toList) :
    l.ReadsBack := by
  cases l with
  | number a =>
    obtain ⟨n, rfl⟩ := hint a rfl
    obtain ⟨m, rfl, hlt⟩ := Tree.exists_nat_of_literal? (Tree.literal?_of_scan? h rfl)
    exact readsBack_number hlt
  | name s =>
    intro rest' he
    obtain ⟨rfl, -, -⟩ := Lexer.scan?_name h
    exact Lexer.scan?_replace h rfl he
  | quoted s =>
    intro rest' _
    exact Lexer.scan?_enclosed (Or.inl rfl) (ne_empty_of_scan? h) (hquote s rfl) rest'
  | plus => exact fun rest' _ => Lexer.scan?_operator rfl rest'
  | minus => exact fun rest' _ => Lexer.scan?_operator rfl rest'
  | times => exact fun rest' _ => Lexer.scan?_operator rfl rest'
  | divide => exact fun rest' _ => Lexer.scan?_operator rfl rest'
  | finish => exact absurd rfl (Lexer.scan?_ne_finish h)

/-! ### The text of a tree -/

/-- An operand ends in front of a sign that does not join on. -/
theorem ends_spelling {l' : Lexeme} (ho : l'.isOperator) (hn : l.NoHyphen l') (more : List Char) :
    Lexer.Ends l (l'.spelling ++ more) := by
  obtain ⟨a, hspelling, hsign, hhyphen⟩ : ∃ a, l'.spelling = [a] ∧ isSign a ∧ (a = '-' → l' = .minus) := by
    cases l' with
    | plus => exact ⟨'+', rfl, rfl, by decide⟩
    | minus => exact ⟨'-', rfl, rfl, fun _ => rfl⟩
    | times => exact ⟨'*', rfl, rfl, by decide⟩
    | divide => exact ⟨'/', rfl, rfl, by decide⟩
    | _ => cases ho
  rw [hspelling]
  cases l with
  | name s =>
    refine Lexer.endsName_cons.mpr ⟨?_, fun he => absurd (hhyphen he) (hn s rfl)⟩
    rcases isSign_iff.mp hsign with rfl | rfl | rfl | rfl
    all_goals decide
  | number a => exact Reads.endsNumber_of_blank_or_sign (Or.inr hsign)
  | _ => trivial

/-- **Spellings without anything in between** are read as the lexemes, if operands stand in front of signs and no
minus stands behind a bare name. -/
theorem reads_spellings (hback : ∀ l ∈ ls, l.ReadsBack) (hc : ls.IsChain Lexeme.Followed)
    (hh : ls.IsChain Lexeme.NoHyphen) : Reads [] (ls.flatMap Lexeme.spelling) ls := by
  induction ls with
  | nil => exact .blanks (by simp)
  | cons l ls ih =>
    obtain ⟨hl, hback⟩ := List.forall_mem_cons.mp hback
    refine .cons (hl _ ?_) (ih hback hc.tail hh.tail)
    by_cases ho : l.isOperand
    · cases ls with
      | nil => exact Reads.ends_nil
      | cons l' ls =>
        rw [List.map_cons, List.flatten_cons, List.append_assoc]
        exact ends_spelling (hc.rel_head? rfl ho) (hh.rel_head? rfl) _
    · cases l <;> trivial

theorem Reads.exists_scan? {front : List Char} (h : Reads rest front ls) :
    ∀ l ∈ ls, ∃ cs run rest, Lexer.scan? cs = some ⟨run, rest, some l⟩ := by
  induction h with
  | blanks => simp
  | token _ hs _ ih => exact List.forall_mem_cons.mpr ⟨⟨_, _, _, hs⟩, ih⟩

/-- **Rendering keeps the tree.** If the numbers of an expression are whole, no quoted name in it holds a double
quote and no minus follows a bare name, then its tree has a text, and that text has the same tree. -/
theorem parse_render {all : List Token} (hp : Tree.parse cs = .ok tree) (ht : tokenize cs = .ok all)
    (hint : ∀ t ∈ all, ∀ a, t.lexeme = .number a → ∃ n, a = .int n)
    (hquote : ∀ t ∈ all, ∀ s, t.lexeme = .quoted s → '"' ∉ s.toList)
    (hminus : (all.map Token.lexeme).IsChain fun l l' => ∀ s, l = .name s → l' ≠ .minus) :
    ∃ text, tree.render = .ok text ∧ Tree.parse text.toList = .ok tree := by
  obtain ⟨ls, hr, hi, hg, hc⟩ := reads_of_parse hp
  obtain ⟨ts, q, hts, rfl⟩ := hr.tokens 0
  obtain rfl := Except.ok.inj (hts.symm.trans ht)
  obtain ⟨text, hrender, htext⟩ := Tree.render_of_inOrder hi (Tree.not_holdsLong_of_parse hp)
  have hback : ∀ l ∈ ts.map Token.lexeme, l.ReadsBack := by
    intro l hl
    obtain ⟨_, _, _, hs⟩ := hr.exists_scan? l hl
    obtain ⟨t, hmem, rfl⟩ := List.mem_map.mp hl
    exact readsBack_of_scan? hs (hint t (by simp [hmem])) (hquote t (by simp [hmem]))
  have hh : (ts.map Token.lexeme).IsChain Lexeme.NoHyphen := by
    rw [List.map_append] at hminus
    exact hminus.left_of_append
  refine ⟨text, hrender, ?_⟩
  rw [htext]
  exact (reads_spellings hback hc hh).parse_iff.mpr ⟨hi, hg⟩

example : (Tree.parse "a - b".toList).bind Tree.render = .ok "a-b" ∧
    Tree.parse "a-b".toList = .ok (.name "a-b" false) := by cbv

/-- A quoted name in single quotes that holds a blank, a name with a hyphen and a number with leading zeros. -/
theorem parse_render_spaced :
    Tree.parse "a-b / 'e y' - 007".toList =
      .ok (.binary .sub (.binary .div (.name "a-b" false) (.name "e y" true)) (.literal (.int 7))) ∧
    ∃ text, (Tree.binary .sub (.binary .div (.name "a-b" false) (.name "e y" true))
          (.literal (.int 7))).render = .ok text ∧
      Tree.parse text.toList =
        .ok (.binary .sub (.binary .div (.name "a-b" false) (.name "e y" true)) (.literal (.int 7))) := by
  have hp : Tree.parse "a-b / 'e y' - 007".toList =
      .ok (.binary .sub (.binary .div (.name "a-b" false) (.name "e y" true)) (.literal (.int 7))) := by cbv
  have ht : tokenize "a-b / 'e y' - 007".toList = .ok [⟨.name "a-b", 0⟩, ⟨.divide, 4⟩, ⟨.quoted "e y", 6⟩,
      ⟨.minus, 12⟩, ⟨.number (.int 7), 14⟩, ⟨.finish, 17⟩] := by cbv
  refine ⟨hp, parse_render hp ht ?_ ?_ ?_⟩
  · simp
  · simp
  · simp

end RowPipeline
