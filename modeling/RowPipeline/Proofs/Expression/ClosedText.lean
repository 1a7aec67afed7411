import RowPipeline.Expression.Shape
import RowPipeline.Proofs.Expression.Failures
import RowPipeline.Proofs.Expression.Grouping
import RowPipeline.Proofs.Text.Characters

/-!
# Closed texts

A closed text is recognised by one pass over its characters (`isClosedFrom`) and worked out by
reading its tokens. Both agree: the pass accepts the rest of a text iff the tokens of that rest are
numbers and operators in turn (`isClosedFrom_tokens`), which is when the text has a tree without
names. The pass goes over a token at a time (`isClosedFrom_scan`). A text can only be too long for
its tokens if it holds a run of too many digits (`exists_long_run`).
-/

namespace RowPipeline

open Text

namespace Lexeme

/-- Whether this is a number literal. -/
def isNumber : Lexeme → Bool
  | number _ => true
  | _ => false

/-- Whether this is a field name, bare or quoted. -/
def isName : Lexeme → Bool
  | name _ | quoted _ => true
  | _ => false

/-- The field that a lexeme names, and whether it is quoted. -/
def field? : Lexeme → Option (String × Bool)
  | name text => some (text, false)
  | quoted text => some (text, true)
  | _ => none

theorem field?_eq_none_iff {l : Lexeme} : l.field? = none ↔ l.isName = false := by
  cases l <;> simp [field?, isName]

theorem isNumber_eq (l : Lexeme) : l.isNumber = (l.isOperand && !l.isName) := by cases l <;> rfl

theorem isName_operator {l : Lexeme} (h : l.isOperator) : l.isName = false := by
  cases l <;> first | rfl | simp [isOperator] at h

end Lexeme

namespace Expression

/-! ### Signs -/

theorem isSign_iff {c : Char} : isSign c ↔ c = '+' ∨ c = '-' ∨ c = '*' ∨ c = '/' := by
  simp [isSign, or_assoc]

/-- The signs are the characters of the operators. -/
theorem operator?_eq_some {c : Char} {l : Lexeme} (h : Lexer.operator? c = some l) :
    isSign c ∧ isDigit c = false ∧ l.isOperator ∧ l.isNumber = false := by
  unfold Lexer.operator? at h
  split_ifs at h with h1 h2 h3 h4
  all_goals
    rw [Option.some.injEq] at h
    subst h
  · subst h1; exact ⟨rfl, by decide, rfl, rfl⟩
  · subst h2; exact ⟨rfl, by decide, rfl, rfl⟩
  · subst h3; exact ⟨rfl, by decide, rfl, rfl⟩
  · subst h4; exact ⟨rfl, by decide, rfl, rfl⟩

theorem isSign_eq_false {c : Char} (h : Lexer.operator? c = none) : isSign c = false := by
  by_contra hs
  rw [Bool.not_eq_false, isSign_iff] at hs
  rcases hs with rfl | rfl | rfl | rfl <;> exact absurd h (by decide)

/-! ### Blanks and digits -/

/-- The pass goes over characters that do not change its state. -/
theorem isClosedFrom_append {state : Expecting} {ds : List Char}
    (h : ∀ c ∈ ds, state.step c = some state) (cs : List Char) :
    isClosedFrom state (ds ++ cs) = isClosedFrom state cs := by
  induction ds with
  | nil => rfl
  | cons d ds ih =>
    rw [← ih fun c hc => h c (by simp [hc]), List.cons_append, isClosedFrom, h d (by simp)]

theorem isClosedFrom_dropWhile {state : Expecting} (h : ∀ c, isBlank c → state.step c = some state)
    (cs : List Char) : isClosedFrom state (cs.dropWhile isBlank) = isClosedFrom state cs := by
  have hblanks : ∀ c ∈ cs.takeWhile isBlank, state.step c = some state := fun c hc =>
    h c (List.mem_takeWhile_imp hc)
  rw [← isClosedFrom_append hblanks, List.takeWhile_append_dropWhile]

theorem isClosedFrom_number_blanks (cs : List Char) :
    isClosedFrom .number (cs.dropWhile isBlank) = isClosedFrom .number cs :=
  isClosedFrom_dropWhile (fun c hc => by simp [Expecting.step, hc]) cs

theorem isClosedFrom_operator_blanks (cs : List Char) :
    isClosedFrom .operator (cs.dropWhile isBlank) = isClosedFrom .operator cs :=
  isClosedFrom_dropWhile (fun c hc => by simp [Expecting.step, hc]) cs

theorem step_whole {c : Char} (h : isDigit c) : Expecting.whole.step c = some .whole := by
  simp [Expecting.step, h]

theorem step_decimals {c : Char} (h : isDigit c) : Expecting.decimals.step c = some .decimals := by
  simp [Expecting.step, h]

/-- Where a character that is no digit follows, the fraction has ended. -/
theorem isClosedFrom_decimals {cs : List Char} (h : Lexer.NoDigit cs) :
    isClosedFrom .decimals cs = isClosedFrom .operator cs := by
  cases cs with
  | nil => rfl
  | cons c cs =>
    have hc := h c rfl
    simp [isClosedFrom, Expecting.step, hc]

/-- Where neither a digit nor a point follows, the whole part has ended. -/
theorem isClosedFrom_whole {cs : List Char} (h : Lexer.NoDigit cs)
    (hp : ∀ rest, cs ≠ '.' :: rest) : isClosedFrom .whole cs = isClosedFrom .operator cs := by
  cases cs with
  | nil => rfl
  | cons c cs =>
    have hc := h c rfl
    have hne : c ≠ '.' := fun he => hp cs (by rw [he])
    simp [isClosedFrom, Expecting.step, hc, hne]

theorem isClosedFrom_operator_eq_false {c : Char} {cs : List Char} (hb : isBlank c = false)
    (hs : isSign c = false) : isClosedFrom .operator (c :: cs) = false := by
  simp [isClosedFrom, Expecting.step, hb, hs]

theorem isClosedFrom_number_eq_false {c : Char} {cs : List Char} (hb : isBlank c = false)
    (hd : isDigit c = false) : isClosedFrom .number (c :: cs) = false := by
  simp [isClosedFrom, Expecting.step, hb, hd]

/-- A point must be followed by a digit. -/
theorem isClosedFrom_point {cs : List Char} (h : Lexer.NoDigit cs) :
    isClosedFrom .whole ('.' :: cs) = false := by
  have hp : isDigit '.' = false := by decide
  cases cs with
  | nil => simp [isClosedFrom, Expecting.step, Expecting.accepts, hp]
  | cons c cs =>
    have hc := h c rfl
    simp [isClosedFrom, Expecting.step, hp, hc]

/-! ### One token -/

theorem isClosedFrom_number_digits {d : Char} {ds : List Char} (hb : isBlank d = false)
    (h : ∀ c ∈ d :: ds, isDigit c) (cs : List Char) :
    isClosedFrom .number (d :: ds ++ cs) = isClosedFrom .whole cs := by
  have hds : ∀ c ∈ ds, isDigit c := fun c hc => h c (List.mem_cons_of_mem d hc)
  rw [← isClosedFrom_append fun c hc => step_whole (hds c hc)]
  simp [isClosedFrom, Expecting.step, hb, h d (by simp)]

/-- The pass goes over a number. -/
theorem isClosedFrom_number_run {cs run rest : List Char}
    (h : Lexer.takeNumber? cs = some (run, rest)) (hb : ∀ c ∈ cs.head?, isBlank c = false) :
    isClosedFrom .number cs = isClosedFrom .operator rest := by
  obtain ⟨d, whole, hd, hno, ⟨-, rfl, hpoint⟩ | ⟨f, fraction, hf, -, rfl⟩⟩ := Lexer.takeNumber?_cases h
  · rw [isClosedFrom_number_digits (hb d rfl) hd]
    by_cases hp : ∃ more, rest = '.' :: more
    · obtain ⟨more, rfl⟩ := hp
      rw [isClosedFrom_point (hpoint more rfl), isClosedFrom_operator_eq_false (by decide) (by decide)]
    · exact isClosedFrom_whole hno fun more hm => hp ⟨more, hm⟩
  · have hfraction : isClosedFrom .whole ('.' :: f :: (fraction ++ rest)) =
        isClosedFrom .decimals (fraction ++ rest) := by
      have hp : isDigit '.' = false := by decide
      simp [isClosedFrom, Expecting.step, hp, hf f (by simp)]
    rw [List.append_assoc, isClosedFrom_number_digits (hb d rfl) hd]
    simp only [List.cons_append]
    rw [hfraction, isClosedFrom_append fun c hc => step_decimals (hf c (by simp [hc]))]
    exact isClosedFrom_decimals hno

/-- The pass refuses a bare name. -/
theorem isClosedFrom_number_name {cs run rest : List Char}
    (h : Lexer.takeName? cs = some (run, rest)) (hb : ∀ c ∈ cs.head?, isBlank c = false) :
    isClosedFrom .number cs = false := by
  obtain ⟨ds, l, after, hds, hl, rfl⟩ := Lexer.takeName?_letter h
  cases ds with
  | nil => exact isClosedFrom_number_eq_false (isBlank_letter hl) (isDigit_letter hl)
  | cons d ds =>
    rw [isClosedFrom_number_digits (hb d rfl) fun c hc => isDigit_ascii (hds c hc)]
    have hs : isSign l = false := by
      by_contra hs
      rw [Bool.not_eq_false, isSign_iff] at hs
      rcases hs with rfl | rfl | rfl | rfl <;> exact absurd hl (by decide)
    have hp : l ≠ '.' := by
      rintro rfl
      exact absurd hl (by decide)
    simp [isClosedFrom, Expecting.step, isDigit_letter hl, isBlank_letter hl, hs, hp]

/-- **The pass goes over a token.** Where a number is due it takes a number, where an operator is due
it takes an operator, and nothing else. -/
theorem isClosedFrom_scan {c : Char} {cs : List Char} {m : Lexer.Match} {l : Lexeme}
    (hb : isBlank c = false) (hs : Lexer.scan? (c :: cs) = some m) (hl : m.lexeme? = some l) :
    isClosedFrom .number (c :: cs) = (l.isNumber && isClosedFrom .operator m.rest) ∧
    isClosedFrom .operator (c :: cs) = (l.isOperator && isClosedFrom .number m.rest) := by
  have hhead : ∀ d ∈ (c :: cs).head?, isBlank d = false := by simpa using hb
  rcases Lexer.scan?_cases hs with ⟨l', hop, rfl⟩ | ⟨hop, hq, run, rest, -, rfl⟩ |
    ⟨hop, hq, run, rest, hn, rfl⟩ | ⟨hop, hq, -, run, rest, hn, rfl⟩
  · obtain rfl : l' = l := Option.some.inj hl
    obtain ⟨hsign, hdigit, hopr, hnum⟩ := operator?_eq_some hop
    rw [hopr, hnum, isClosedFrom_number_eq_false hb hdigit]
    simp [isClosedFrom, Expecting.step, hb, hsign]
  · obtain rfl := Option.some.inj hl
    rw [isClosedFrom_operator_eq_false hb (isSign_eq_false hop)]
    rcases hq with rfl | rfl
    · exact ⟨isClosedFrom_number_eq_false hb (by decide), rfl⟩
    · exact ⟨isClosedFrom_number_eq_false hb (by decide), rfl⟩
  · obtain rfl := Option.some.inj hl
    rw [isClosedFrom_operator_eq_false hb (isSign_eq_false hop), isClosedFrom_number_name hn hhead]
    exact ⟨rfl, rfl⟩
  · obtain ⟨a, -, rfl⟩ := Option.map_eq_some_iff.mp hl
    rw [isClosedFrom_operator_eq_false hb (isSign_eq_false hop), isClosedFrom_number_run hn hhead]
    exact ⟨rfl, rfl⟩

theorem isClosedFrom_foreign {c : Char} {cs : List Char} (hb : isBlank c = false)
    (hs : Lexer.scan? (c :: cs) = none) :
    isClosedFrom .number (c :: cs) = false ∧ isClosedFrom .operator (c :: cs) = false := by
  obtain ⟨hop, hq⟩ := Lexer.scan?_eq_none hs
  refine ⟨?_, isClosedFrom_operator_eq_false hb (isSign_eq_false hop)⟩
  rcases hq with (rfl | rfl) | hn
  · exact isClosedFrom_number_eq_false hb (by decide)
  · exact isClosedFrom_number_eq_false hb (by decide)
  · exact isClosedFrom_number_eq_false hb (Lexer.takeNumber?_eq_none hn)

/-! ### All tokens -/

/-- Whether a list is numbers and operators in turn and then the end mark; the first one is a number
if one is due. -/
def numbersInTurn (due : Bool) : List Lexeme → Bool
  | [] => false
  | l :: rest =>
    if due then l.isNumber && numbersInTurn false rest
    else (l == .finish && rest.isEmpty) || (l.isOperator && numbersInTurn true rest)

/-- **The pass agrees with the tokens**, except that it does not refuse a numeral of too many
digits. -/
theorem isClosedFrom_tokens (c : Cursor) :
    (∀ ts, c.tokens = .ok ts →
      isClosedFrom .number c.rest = numbersInTurn true (ts.map Token.lexeme) ∧
      isClosedFrom .operator c.rest = numbersInTurn false (ts.map Token.lexeme)) ∧
    ∀ failure, c.tokens = .error failure → failure ≠ .numeralTooLong →
      isClosedFrom .number c.rest = false ∧ isClosedFrom .operator c.rest = false := by
  induction c using Cursor.reading_induction with
  | finish c hd =>
    rw [Cursor.tokens_of_end hd, ← isClosedFrom_number_blanks, ← isClosedFrom_operator_blanks, hd]
    refine ⟨?_, by simp⟩
    rintro ts ⟨rfl⟩
    exact ⟨rfl, rfl⟩
  | foreign c ch cs hd hs =>
    rw [Cursor.tokens_of_foreign hd hs, ← isClosedFrom_number_blanks,
      ← isClosedFrom_operator_blanks, hd]
    exact ⟨by simp, fun _ _ _ => isClosedFrom_foreign (isBlank_of_dropWhile hd) hs⟩
  | long c ch cs m hd hs hl =>
    rw [Cursor.tokens_of_long hd hs hl]
    refine ⟨by simp, ?_⟩
    rintro failure ⟨rfl⟩ hne
    exact absurd rfl hne
  | lexeme c ch cs m l hd hs hl ih =>
    obtain ⟨h1, h2⟩ := isClosedFrom_scan (isBlank_of_dropWhile hd) hs hl
    obtain ⟨ihok, iherr⟩ := ih (c.skipBlanks.position + m.run.length)
    rw [Cursor.tokens_of_lexeme hd hs hl, ← isClosedFrom_number_blanks,
      ← isClosedFrom_operator_blanks, hd, h1, h2]
    rcases hr : (Cursor.mk (c.skipBlanks.position + m.run.length) m.rest).tokens with e | more
    · rw [Except.map_error]
      refine ⟨by simp, ?_⟩
      rintro failure ⟨rfl⟩ hne
      obtain ⟨hn, ho⟩ := iherr e hr hne
      exact ⟨by rw [ho, Bool.and_false], by rw [hn, Bool.and_false]⟩
    · rw [Except.map_ok]
      refine ⟨?_, by simp⟩
      rintro ts ⟨rfl⟩
      obtain ⟨hn, ho⟩ := ihok more hr
      have hf : (l == .finish) = false :=
        beq_false_of_ne fun he => Lexer.scan?_ne_finish hs (by rw [hl, he])
      rw [hn, ho]
      simp [numbersInTurn, hf]

theorem numbersInTurn_eq : ∀ {ls : List Lexeme}, (∀ l ∈ ls, l ≠ .finish) →
    numbersInTurn true (ls ++ [.finish]) = (Lexeme.alternates ls && ls.all fun l => !l.isName)
  | [], _ => rfl
  | [l], h => by
    cases l <;> simp_all [numbersInTurn, Lexeme.alternates, Lexeme.isNumber, Lexeme.isName,
      Lexeme.isOperand, Lexeme.isOperator]
  | l :: op :: ls, h => by
    have ih : numbersInTurn true (ls ++ [.finish]) =
        (Lexeme.alternates ls && ls.all fun l => !l.isName) :=
      numbersInTurn_eq fun l' hl' => h l' (by simp [hl'])
    have hf : (op == .finish) = false := beq_false_of_ne (h op (by simp))
    have hstep : numbersInTurn true (l :: op :: ls ++ [.finish]) =
        (l.isNumber && (op.isOperator && numbersInTurn true (ls ++ [.finish]))) := by
      simp [numbersInTurn, hf]
    rw [hstep, ih, Lexeme.isNumber_eq, Lexeme.alternates, List.all_cons, List.all_cons]
    rcases ho : op.isOperator with _ | _
    · simp
    · rw [Lexeme.isName_operator ho]
      cases l.isOperand <;> cases l.isName <;> simp

/-! ### Trees without names -/

/-- The names of a tree are those of its tokens. -/
theorem names_of_inOrder : ∀ {t : Tree} {ls : List Lexeme}, t.inOrder = some ls →
    t.names = ls.filterMap Lexeme.field?
  | .literal a, ls, h => by
    obtain rfl : [Lexeme.number a] = ls := Option.some.inj h
    rfl
  | .name text quoted, ls, h => by
    obtain rfl : [if quoted then Lexeme.quoted text else .name text] = ls := Option.some.inj h
    cases quoted <;> rfl
  | .binary op left right, ls, h => by
    obtain ⟨ll, l, lr, hl, ho, hr, rfl⟩ := Tree.inOrder_binary h
    have hop : l.field? = none := Lexeme.field?_eq_none_iff.mpr
      (Lexeme.isName_operator (Lexeme.isOperator_of_ofOperator? ho))
    rw [Tree.names, names_of_inOrder hl, names_of_inOrder hr, List.filterMap_append,
      List.filterMap_cons_none hop]
  | .hole, ls, h => by simp [Tree.inOrder] at h

/-- A tree has no names iff its tokens hold none. -/
theorem names_eq_nil_iff {t : Tree} {ls : List Lexeme} (h : t.inOrder = some ls) :
    t.names = [] ↔ ls.all fun l => !l.isName := by
  rw [names_of_inOrder h, List.filterMap_eq_nil_iff]
  simp [Lexeme.field?_eq_none_iff]

/-- A text that is read has a tree without holes. -/
theorem inOrder_of_parse {cs : List Char} {tree : Tree} (h : Tree.parse cs = .ok tree) :
    ∃ ls, tree.inOrder = some ls := by
  obtain ⟨ts, -, -, -, ho⟩ := Tree.tokens_of_parse h
  exact ⟨_, ho⟩

/-- **A text has a tree without names iff the pass accepts it**, if no numeral has too many digits. -/
theorem parse_closed_iff {cs : List Char} (h : tokenize cs ≠ .error .numeralTooLong) :
    (∃ tree, Tree.parse cs = .ok tree ∧ tree.names = []) ↔ isClosedFrom .number cs := by
  obtain ⟨hok, herr⟩ := isClosedFrom_tokens (Cursor.start cs)
  rcases ht : tokenize cs with failure | all
  · have hne : failure ≠ .numeralTooLong := fun he => h (by rw [ht, he])
    have hp : Tree.parse cs = .error failure := by
      rw [Tree.parse, ht]
      rfl
    have hc : isClosedFrom .number cs = false := (herr failure ht hne).1
    simp [hp, hc]
  · obtain ⟨ts, p, rfl, hne⟩ := Cursor.tokens_shape _ ht
    have hc : isClosedFrom .number cs = (Lexeme.alternates (ts.map Token.lexeme) &&
        (ts.map Token.lexeme).all fun l => !l.isName) := by
      have hls : ∀ l ∈ ts.map Token.lexeme, l ≠ .finish := by simpa using hne
      have hall := (hok _ ht).1
      rw [List.map_append] at hall
      rw [← numbersInTurn_eq hls]
      exact hall
    rw [hc, Bool.and_eq_true, ← Tree.ofTokens_ok_iff hne]
    simp only [Tree.parse_ok_iff ht]
    constructor
    · rintro ⟨tree, ht, hn⟩
      exact ⟨⟨tree, ht⟩, (names_eq_nil_iff (Tree.ofTokens_sound ht).2).mp hn⟩
    · rintro ⟨⟨tree, ht⟩, hall⟩
      exact ⟨tree, ht, (names_eq_nil_iff (Tree.ofTokens_sound ht).2).mpr hall⟩

/-! ### Long numerals -/

/-- A numeral without value is a run of too many digits. -/
theorem long_of_literal {cs run rest : List Char} (h : Lexer.takeNumber? cs = some (run, rest))
    (hl : Lexer.literal? run = none) :
    (∀ c ∈ run, isDigit c) ∧ Numeral.maxDigits < run.length := by
  have hp : run.contains '.' = false := by
    by_contra hp
    rw [Bool.not_eq_false] at hp
    rw [Lexer.literal?, if_pos hp] at hl
    simp at hl
  obtain ⟨d, whole, hd, -, ⟨rfl, -, -⟩ | ⟨f, fraction, -, rfl, -⟩⟩ := Lexer.takeNumber?_cases h
  · refine ⟨hd, ?_⟩
    by_contra hn
    rw [Lexer.literal?, if_neg (by rw [hp]; simp), Numeral.ofDigits?,
      if_pos (Nat.not_lt.mp hn)] at hl
    simp at hl
  · simp at hp

/-- **Tokens fail for length only where a run of too many digits stands.** -/
theorem exists_long_run (c : Cursor) (h : c.tokens = .error .numeralTooLong) :
    ∃ run, run <:+: c.rest ∧ (∀ d ∈ run, isDigit d) ∧ Numeral.maxDigits < run.length := by
  induction c using Cursor.reading_induction with
  | finish c hd => rw [Cursor.tokens_of_end hd] at h; simp at h
  | foreign c ch cs hd hs => rw [Cursor.tokens_of_foreign hd hs] at h; simp at h
  | long c ch cs m hd hs hl =>
    have hsuffix : ch :: cs <:+ c.rest := hd ▸ List.dropWhile_suffix isBlank
    rcases Lexer.scan?_cases hs with ⟨l', hop, rfl⟩ | ⟨-, -, run, rest, -, rfl⟩ |
      ⟨-, -, run, rest, -, rfl⟩ | ⟨-, -, -, run, rest, hn, rfl⟩
    · simp at hl
    · simp at hl
    · simp at hl
    · obtain ⟨hdigits, hlen⟩ := long_of_literal hn (by simpa using hl)
      have hrun : run <+: ch :: cs := ⟨rest, (Lexer.takeNumber?_append hn).1⟩
      exact ⟨run, hrun.isInfix.trans hsuffix.isInfix, hdigits, hlen⟩
  | lexeme c ch cs m l hd hs hl ih =>
    have hsuffix : ch :: cs <:+ c.rest := hd ▸ List.dropWhile_suffix isBlank
    have hrest : m.rest <:+ ch :: cs := ⟨m.run, (Lexer.scan?_append hs).1⟩
    rw [Cursor.tokens_of_lexeme hd hs hl] at h
    rcases hr : (Cursor.mk (c.skipBlanks.position + m.run.length) m.rest).tokens with e | more
    · rw [hr, Except.map_error, Except.error.injEq] at h
      obtain ⟨run, hrun, hdigits, hlen⟩ := ih _ (by rw [hr, h])
      exact ⟨run, hrun.trans (hrest.trans hsuffix).isInfix, hdigits, hlen⟩
    · rw [hr, Except.map_ok] at h; simp at h

/-- No run of digits is longer than a numeral may be. -/
def RunsFit (cs : List Char) : Prop :=
  ∀ run, run <:+: cs → (∀ c ∈ run, isDigit c) → run.length ≤ Numeral.maxDigits

theorem RunsFit.of_isInfix {cs ds : List Char} (h : RunsFit cs) (hd : ds <:+: cs) : RunsFit ds :=
  fun run hrun => h run (hrun.trans hd)

theorem RunsFit.of_length_le {cs : List Char} (h : cs.length ≤ Numeral.maxDigits) : RunsFit cs :=
  fun _ hrun _ => hrun.length_le.trans h

theorem RunsFit.tokenize_ne {cs : List Char} (h : RunsFit cs) :
    tokenize cs ≠ .error .numeralTooLong := by
  intro ht
  obtain ⟨run, hrun, hdigits, hlen⟩ := exists_long_run _ ht
  have := h run hrun hdigits
  omega

theorem isInfix_body (s : String) : body s <:+: s.toList := by
  have ht := isInfix_trim s.toList
  unfold body
  split
  · rename_i c rest hs
    rw [hs] at ht
    split
    · exact (isInfix_trim rest).trans ((List.suffix_cons c rest).isInfix.trans ht)
    · exact ht
  · exact List.nil_infix

/-! ### The value of a closed text -/

/-- A closed text is only unreadable for a numeral of too many digits. -/
theorem parse_error_of_closed {v : String} {failure : Failure} (hc : isClosed v)
    (h : Tree.parse (body v) = .error failure) : failure = .numeralTooLong := by
  by_cases ht : tokenize (body v) = .error .numeralTooLong
  · rw [Tree.parse, ht] at h
    exact (Except.error.inj h).symm
  · obtain ⟨tree, hok, -⟩ := (parse_closed_iff ht).mpr hc
    rw [hok] at h
    cases h

theorem names_of_closed {v : String} {tree : Tree} (hc : isClosed v)
    (h : Tree.parse (body v) = .ok tree) : tree.names = [] := by
  have ht : tokenize (body v) ≠ .error .numeralTooLong := by
    intro ht
    rw [Tree.parse, ht] at h
    cases h
  obtain ⟨tree', hok, hn⟩ := (parse_closed_iff ht).mpr hc
  obtain rfl := Except.ok.inj (hok.symm.trans h)
  exact hn

/-- A closed text fails in its numbers only. -/
theorem evaluateClosed_error {v : String} {failure : Failure} (hc : isClosed v)
    (h : evaluateClosed v = .error failure) : failure.isNumeric := by
  rcases bind_eq_error_iff.mp h with hp | ⟨tree, hp, h⟩
  · rw [parse_error_of_closed hc hp]
    rfl
  · have hn : tree.names = [] := names_of_closed hc hp
    rcases bind_eq_error_iff.mp h with hr | ⟨source, -, h⟩
    · rcases Tree.renderWith_error hr with hnum | ⟨n, hmem, -⟩
      · exact hnum
      · rw [hn] at hmem; simp at hmem
    · rcases bind_eq_error_iff.mp h with hcomp | ⟨a, -, hfin⟩
      · rcases Tree.compute_error hcomp with hnum | ⟨n, hmem, -⟩
        · exact hnum
        · rw [hn] at hmem; simp at hmem
      · exact Number.finalize_error hfin

/-- **The recogniser and the reader agree.** If no run of digits is too long, a text is closed iff it
has a tree without names. Whatever its numbers, the value of a closed text never fails for a
character, for a token or for a name. -/
theorem isClosed_iff_parse (v : String) :
    (RunsFit v.toList → (isClosed v ↔ ∃ tree, Tree.parse (body v) = .ok tree ∧ tree.names = [])) ∧
    (isClosed v → ∀ failure, evaluateClosed v = .error failure →
      (∀ ch p, failure ≠ .lexical ch p) ∧ (∀ e, failure ≠ .parse e) ∧
        ∀ s, failure ≠ .notClosed s) := by
  constructor
  · intro h
    exact (parse_closed_iff (h.of_isInfix (isInfix_body v)).tokenize_ne).symm
  · intro hc failure h
    have hnum := evaluateClosed_error hc h
    refine ⟨?_, ?_, ?_⟩
    · rintro ch p rfl; simp [Failure.isNumeric] at hnum
    · rintro e rfl; simp [Failure.isNumeric] at hnum
    · rintro s rfl; simp [Failure.isNumeric] at hnum

/-- A decimal and a digit of another script behind the marker; `2a` is a name, and so not closed. -/
theorem isClosed_iff_parse_mixed :
    RunsFit "= 12.5 * ٣".toList ∧
      (∃ tree, Tree.parse (body "= 12.5 * ٣") = .ok tree ∧ tree.names = []) ∧
    RunsFit "=2a".toList ∧
      ¬ ∃ tree, Tree.parse (body "=2a") = .ok tree ∧ tree.names = [] := by
  have h : RunsFit "= 12.5 * ٣".toList := fun run hrun _ => hrun.length_le.trans (by decide)
  have h' : RunsFit "=2a".toList := fun run hrun _ => hrun.length_le.trans (by decide)
  refine ⟨h, ((isClosed_iff_parse _).1 h).mp (by decide), h', ?_⟩
  rw [← (isClosed_iff_parse _).1 h']
  decide

end Expression

end RowPipeline
