import RowPipeline.Mapping
import RowPipeline.Proofs.Expression.MarkedText

/-!
# Renaming inside an expression

In a marked expression a table renames the first operand of a name, in the text: the run of that operand
is cut out and the new name is put there, in the quotes of the operand or, if it was bare, in quotes only
where the new name does not read as a bare name. The text is read as before up to that place, the new
operand is read as one token (`operandText_spec`) and what stands behind it is read as before
(`parse_exchange`). So the tree stays the same but for that operand (`OperandAt.rename`,
`mapConfigEntries_expression`).

Two things can go wrong: the new name holds the quote that the operand has
(`mapConfigEntries_expression_of_own_quote`), or it holds a run of too many digits, so that nobody can
tell whether it is a bare name.
-/

namespace RowPipeline

open Text Expression

namespace Mapping

variable {v x : String} {quote : Option Char} {rest : List Char} {t u : Token}
  {before after : List Token}

/-! ### The operand -/

theorem findOperand_append {cs : List Char} (hb : ∀ u ∈ before, u.lexeme.isNamed v = false)
    (ht : t.lexeme.isNamed v) : findOperand v cs (before ++ t :: after) =
      some (t.position, if t.lexeme = .name v then none else cs[t.position]?) := by
  induction before with
  | nil =>
    rcases Lexeme.isNamed_iff.mp ht with h | h <;> simp [findOperand, h]
  | cons u before ih =>
    have hu : ¬ (u.lexeme = .name v ∨ u.lexeme = .quoted v) := by
      rw [← Lexeme.isNamed_iff, hb u (by simp)]
      exact Bool.false_ne_true
    obtain ⟨h1, h2⟩ := not_or.mp hu
    rw [List.cons_append, findOperand, if_neg h1, if_neg h2]
    exact ih fun w hw => hb w (by simp [hw])

/-- What is found is the first operand of the name, and one is found where there is one. -/
theorem exists_of_findOperand {cs : List Char} {ts : List Token} {p : Nat}
    (h : findOperand v cs ts = some (p, quote)) : ∃ before t after, ts = before ++ t :: after ∧
      (∀ u ∈ before, u.lexeme.isNamed v = false) ∧ t.lexeme.isNamed v ∧ p = t.position ∧
      quote = if t.lexeme = .name v then none else cs[t.position]? := by
  induction ts with
  | nil => cases h
  | cons t ts ih =>
    cases ht : t.lexeme.isNamed v with
    | true =>
      have hfound : findOperand v cs ([] ++ t :: ts) =
          some (t.position, if t.lexeme = .name v then none else cs[t.position]?) :=
        findOperand_append (by simp) ht
      rw [List.nil_append, h] at hfound
      obtain ⟨rfl, rfl⟩ := Prod.mk.inj (Option.some.inj hfound)
      exact ⟨[], t, ts, rfl, by simp, ht, rfl, rfl⟩
    | false =>
      have hother : ¬ (t.lexeme = .name v ∨ t.lexeme = .quoted v) := by
        rw [← Lexeme.isNamed_iff, ht]
        exact Bool.false_ne_true
      obtain ⟨h1, h2⟩ := not_or.mp hother
      rw [findOperand, if_neg h1, if_neg h2] at h
      obtain ⟨before, t', after, rfl, hb, hn, hp, hquote⟩ := ih h
      exact ⟨t :: before, t', after, rfl, List.forall_mem_cons.mpr ⟨ht, hb⟩, hn, hp, hquote⟩

/-- A text that reads as its own name is one bare name and nothing else. -/
theorem takeName?_of_tokens (h : tokenize x.toList = .ok [t, u]) (ht : t.lexeme = .name x) :
    Lexer.takeName? x.toList = some (x.toList, []) := by
  have h : (Cursor.start x.toList).tokens = .ok ([] ++ t :: [u]) := h
  obtain ⟨front, run, rest, hx, -, hs, -⟩ := Cursor.tokens_around h (by simp)
  rw [ht] at hs
  obtain ⟨rfl, hname, -⟩ := Lexer.scan?_name hs
  have hlen : x.toList.length = (front ++ (x.toList ++ rest)).length := congrArg List.length hx
  rw [List.length_append, List.length_append] at hlen
  obtain rfl : rest = [] := List.eq_nil_of_length_eq_zero (by omega)
  rwa [List.append_nil] at hname

/-- Whether a name is bare can be told, if it is read without a numeral of too many digits. -/
theorem isBareName_ok (h : tokenize x.toList ≠ .error .numeralTooLong) :
    ∃ bare, isBareName x = .ok bare ∧
      (bare → Lexer.takeName? x.toList = some (x.toList, [])) := by
  cases ht : tokenize x.toList with
  | error failure =>
    rcases Cursor.tokens_error _ ht with rfl | ⟨ch, p, rfl⟩
    · exact absurd ht h
    · refine ⟨false, ?_, by simp⟩
      rw [isBareName, tokens?, ht]
      rfl
  | ok ts =>
    have hts : tokens? x.toList = .ok (some ts) := by rw [tokens?, ht]
    rcases ts with _ | ⟨t, _ | ⟨u, _ | ⟨w, ts⟩⟩⟩
    case cons.cons.nil =>
      refine ⟨t.lexeme == .name x, by rw [isBareName, hts]; rfl, fun hb => ?_⟩
      exact takeName?_of_tokens ht (beq_iff_eq.mp hb)
    all_goals exact ⟨false, by rw [isBareName, hts]; rfl, by simp⟩

theorem scan?_of_bare (h : Lexer.takeName? x.toList = some (x.toList, [])) (he : Lexer.EndsName rest) :
    Lexer.scan? (x.toList ++ rest) = some ⟨x.toList, rest, some (.name x)⟩ := by
  have hs := Lexer.scan?_of_takeName? (Lexer.takeName?_replace h he)
  rwa [String.ofList_toList] at hs

/-- The new operand is read as one token, and it is bare only in the place of a bare one. -/
theorem operandText_spec (hne : x ≠ "") (hboth : ¬ ('"' ∈ x.toList ∧ '\'' ∈ x.toList))
    (hq : ∀ q ∈ quote, (q = '"' ∨ q = '\'') ∧ q ∉ x.toList)
    (hbare : quote = none → tokenize x.toList ≠ .error .numeralTooLong ∧ Lexer.EndsName rest) :
    ∃ run quoted, operandText x quote = .ok run ∧
      Lexer.scan? (run ++ rest) = some ⟨run, rest, some (.ofName x quoted)⟩ ∧
      (Lexer.StartsWord (run ++ rest) → quote = none) := by
  cases quote with
  | some q =>
    obtain ⟨hquote, hmem⟩ := hq q rfl
    refine ⟨q :: (x.toList ++ [q]), true, rfl, Lexer.scan?_enclosed hquote hne hmem rest, ?_⟩
    rintro ⟨c, ⟨rfl⟩, hw⟩
    rcases hquote with rfl | rfl
    · exact absurd hw (by decide)
    · exact absurd hw (by decide)
  | none =>
    obtain ⟨hshort, hends⟩ := hbare rfl
    obtain ⟨bare, hb, hname⟩ := isBareName_ok hshort
    cases bare with
    | true =>
      refine ⟨x.toList, false, ?_, scan?_of_bare (hname rfl) hends, fun _ => rfl⟩
      rw [operandText, hb]
      rfl
    | false =>
      have htext : operandText x none = .ok ((if x.contains '"' then '\'' else '"') ::
          (x.toList ++ [if x.contains '"' then '\'' else '"'])) := by
        rw [operandText, hb]
        rfl
      refine ⟨_, true, htext, Lexer.scan?_enclosed ?_ hne ?_ rest, fun _ => rfl⟩
      · split
        · exact Or.inr rfl
        · exact Or.inl rfl
      · intro hmem
        split at hmem
        · rename_i hx
          exact hboth ⟨by simpa using hx, hmem⟩
        · rename_i hx
          exact hx (by simpa using hmem)

/-! ### The expression -/

/-- A name as it is written in an expression: bare, or in quotes. -/
def spell (name : String) : Option Char → List Char
  | none => name.toList
  | some q => q :: (name.toList ++ [q])

theorem length_spell (name : String) (quote : Option Char) :
    (spell name quote).length = name.length + if quote.isSome then 2 else 0 := by
  cases quote <;> simp [spell, String.length_toList]

/-- The quote that the first operand of a name has in an expression, if it is quoted. -/
def quoteOf (name e : String) : Option Char :=
  match tokenize (behindMarker e) with
  | .ok ts => (findOperand name (behindMarker e) ts).bind Prod.snd
  | .error _ => none

/-- What the run of an operand says of its quote. -/
theorem run_of_operand {cs front run : List Char} (hcs : cs = front ++ (run ++ rest))
    (ht : t.lexeme.isNamed v) (hp : t.position = front.length)
    (hs : Lexer.scan? (run ++ rest) = some ⟨run, rest, some t.lexeme⟩)
    (hquote : quote = if t.lexeme = .name v then none else cs[t.position]?) :
    run = spell v quote ∧ t.lexeme = .ofName v quote.isSome ∧ (∀ q ∈ quote, q = '"' ∨ q = '\'') ∧
      (quote = none → Lexer.StartsWord (run ++ rest) ∧ Lexer.EndsName rest) := by
  rcases Lexeme.isNamed_iff.mp ht with hl | hl
  · rw [hl] at hs
    obtain rfl : quote = none := by rw [hquote, if_pos hl]
    obtain ⟨rfl, hname, hends⟩ := Lexer.scan?_name hs
    exact ⟨rfl, hl, by simp, fun _ => ⟨Lexer.startsWord_of_takeName? hname, hends⟩⟩
  · rw [hl] at hs
    obtain ⟨q, hq, -, rfl⟩ := Lexer.scan?_quoted hs
    have hget : cs[t.position]? = some q := by
      rw [hcs, hp]
      simp
    obtain rfl : quote = some q := by
      rw [hquote, hl, if_neg (by simp), hget]
    exact ⟨rfl, hl, by simpa using hq, by simp⟩

variable {e : String} {tree : Tree}

/-- The tokens of an expression around the first operand of a name. -/
theorem exists_operand_token (he : hasMarker e) (hp : Tree.parse (body e) = .ok tree)
    (hm : Mentions tree v) : ∃ before t after q,
      tokenize (behindMarker e) = .ok (before ++ t :: (after ++ [⟨.finish, q⟩])) ∧
      tree.inOrder = some (before.map Token.lexeme ++ t.lexeme :: after.map Token.lexeme) ∧
      tree.grouped ∧
      (before.map Token.lexeme ++ t.lexeme :: after.map Token.lexeme).IsChain Lexeme.Followed ∧
      (∀ l ∈ before.map Token.lexeme, l.isNamed v = false) ∧ t.lexeme.isNamed v :=
  exists_token he hp fun _ hi => (Tree.mentions_iff hi).mp hm

/-- **Another operand in the place of a name** is read in the place of its token, so the tree is the
same but for that name. -/
theorem parse_exchange {ls ls' : List Lexeme} {l : Lexeme} {front run run' : List Char}
    {quoted : Bool} (hi : tree.inOrder = some (ls ++ l :: ls')) (hg : tree.grouped)
    (hc : (ls ++ l :: ls').IsChain Lexeme.Followed) (hb : ∀ u ∈ ls, u.isNamed v = false)
    (hl : l.isNamed v) (hfront : Reads (run ++ rest) front ls) (hrest : Reads [] rest ls')
    (hword : Lexer.StartsWord (run' ++ rest) → Lexer.StartsWord (run ++ rest))
    (hs : Lexer.scan? (run' ++ rest) = some ⟨run', rest, some (.ofName x quoted)⟩) :
    Tree.parse (front ++ (run' ++ rest)) = .ok (tree.renameFirst v x quoted) := by
  have hlast : ∀ o ∈ ls.getLast?, o.isOperand → Lexer.Ends o (run' ++ rest) := by
    intro o ho hoperand
    obtain ⟨-, -, hjoin⟩ := List.isChain_append.mp hc
    have hn : l.isNamed v = false := Lexeme.isNamed_operator (hjoin o ho l rfl hoperand)
    rw [hn] at hl
    cases hl
  have hreads : Reads [] (front ++ (run' ++ rest)) (ls ++ .ofName x quoted :: ls') := by
    refine Reads.append ?_ (Reads.cons ?_ hrest)
    · rw [List.append_nil]
      exact hfront.replace hc.left_of_append hword hlast
    · simpa using hs
  refine hreads.parse_iff.mpr ⟨?_, Tree.grouped_renameFirst.trans hg⟩
  have hnone : ∀ u ∈ ls, Tree.exchange v x quoted u = none := fun u hu =>
    Tree.exchange_eq_none_iff.mpr (hb u hu)
  have hsome : Tree.exchange v x quoted l = some (.ofName x quoted) := if_pos hl
  rw [Tree.inOrder_renameFirst hi, Tree.replaceF_append_of_none hnone,
    List.replaceF_cons_of_some _ hsome]

/-- What is put together once the operand is found. -/
theorem renameOperand_eq {ts : List Token} {position : Nat} {run : List Char}
    (ht : tokenize (behindMarker e) = .ok ts)
    (hf : findOperand v (behindMarker e) ts = some (position, quote))
    (ho : operandText x quote = .ok run) : renameOperand e v x =
      .ok (some (String.ofList (e.toList.takeWhile (· != marker) ++ [marker] ++
        (behindMarker e).take position ++ run ++
          (behindMarker e).drop (position + (v.length + if quote.isSome then 2 else 0))))) := by
  have hts : tokens? (behindMarker e) = .ok (some ts) := by rw [tokens?, ht]
  unfold behindMarker at hts hf ⊢
  rw [renameOperand, hts]
  simp only [Except.bind, bind, hf, ho]
  rfl

/-- The first operand of a name in an expression: its run and its quote, with the text before and behind. -/
structure OperandAt (e v : String) (tree : Tree) (front run rest : List Char) (quote : Option Char) :
    Prop where
  text : behindMarker e = front ++ (run ++ rest)
  found : ∃ ts, tokenize (behindMarker e) = .ok ts ∧
    findOperand v (behindMarker e) ts = some (front.length, quote)
  width : run.length = v.length + if quote.isSome then 2 else 0
  kind : ∀ q ∈ quote, q = '"' ∨ q = '\''
  bare : quote = none → Lexer.StartsWord (run ++ rest) ∧ Lexer.EndsName rest
  /-- Another operand may stand in its place. -/
  exchange : ∀ {x : String} {run' : List Char} {quoted : Bool},
    (Lexer.StartsWord (run' ++ rest) → Lexer.StartsWord (run ++ rest)) →
    Lexer.scan? (run' ++ rest) = some ⟨run', rest, some (.ofName x quoted)⟩ →
    Tree.parse (front ++ (run' ++ rest)) = .ok (tree.renameFirst v x quoted)

theorem exists_operandAt (he : hasMarker e) (hp : Tree.parse (body e) = .ok tree)
    (hm : Mentions tree v) : ∃ front run rest quote, OperandAt e v tree front run rest quote := by
  obtain ⟨before, t, after, p, htokens, hi, hg, hc, hb, ht⟩ := exists_operand_token he hp hm
  obtain ⟨front, run, rest, hcs, hfront, hs, hposition, hafter⟩ :=
    Cursor.tokens_around (c := Cursor.start (behindMarker e)) htokens (by simp)
  have hcs : behindMarker e = front ++ (run ++ rest) := hcs
  have hposition : t.position = front.length := hposition.trans (Nat.zero_add _)
  obtain ⟨quote, hquote⟩ : ∃ quote, quote =
    if t.lexeme = .name v then none else (behindMarker e)[t.position]? := ⟨_, rfl⟩
  have hfind : findOperand v (behindMarker e) (before ++ t :: (after ++ [⟨.finish, p⟩])) =
      some (front.length, quote) := by
    rw [findOperand_append (fun u hu => hb _ (List.mem_map_of_mem hu)) ht, hquote, hposition]
  obtain ⟨hrun, -, hkind, hbare⟩ := run_of_operand hcs ht hposition hs hquote
  have hwidth : run.length = v.length + if quote.isSome then 2 else 0 := by
    rw [hrun, length_spell]
  have hrest : Reads [] rest (after.map Token.lexeme) := reads_iff.mpr ⟨after, p, hafter, rfl⟩
  exact ⟨front, run, rest, quote, hcs, ⟨_, htokens, hfind⟩, hwidth, hkind, hbare,
    fun hword hs' => parse_exchange hi hg hc hb ht hfront hrest hword hs'⟩

section OperandAt

variable {front run : List Char}

theorem OperandAt.quoteOf_eq (h : OperandAt e v tree front run rest quote) : quoteOf v e = quote := by
  obtain ⟨ts, ht, hf⟩ := h.found
  rw [quoteOf, ht]
  simp only [hf]
  rfl

/-- **An operand is renamed in the text as in the tree**, unless the new name holds the quote that the
operand has, or the operand is bare and the new name too long to be looked at. -/
theorem OperandAt.rename (h : OperandAt e v tree front run rest quote) (he : hasMarker e) (hne : x ≠ "")
    (hboth : ¬ ('"' ∈ x.toList ∧ '\'' ∈ x.toList)) (hq : ∀ q ∈ quote, q ∉ x.toList)
    (hshort : quote = none → tokenize x.toList ≠ .error .numeralTooLong) :
    ∃ e' quoted, renameOperand e v x = .ok (some e') ∧ hasMarker e' ∧
      Tree.parse (body e') = .ok (tree.renameFirst v x quoted) := by
  obtain ⟨run', quoted, htext, hs', hword⟩ := operandText_spec (x := x) hne hboth
    (fun q hm => ⟨h.kind q hm, hq q hm⟩) fun hn => ⟨hshort hn, (h.bare hn).2⟩
  obtain ⟨ts, htokens, hfind⟩ := h.found
  -- the new text
  obtain ⟨bs, hblanks, hlist⟩ := hasMarker_iff.mp he
  have hlist' : (String.ofList (bs ++ marker :: (front ++ (run' ++ rest)))).toList =
      bs ++ marker :: (front ++ (run' ++ rest)) := String.toList_ofList
  have hbehind := behindMarker_of_blanks hblanks hlist'
  have he' : hasMarker (String.ofList (bs ++ marker :: (front ++ (run' ++ rest)))) :=
    hasMarker_iff.mpr ⟨bs, hblanks, by rw [hbehind, hlist']⟩
  have hrename : renameOperand e v x =
      .ok (some (String.ofList (bs ++ marker :: (front ++ (run' ++ rest))))) := by
    rw [renameOperand_eq htokens hfind htext, takeWhile_of_blanks hblanks hlist, h.text, ← h.width,
      ← List.append_assoc front, ← List.length_append]
    simp
  refine ⟨_, quoted, hrename, he', (parse_body_iff he').mpr ?_⟩
  rw [hbehind]
  exact h.exchange (fun hw => (h.bare (hword hw)).1) hs'

end OperandAt

theorem renameOperand_ok (he : hasMarker e) (hp : Tree.parse (body e) = .ok tree)
    (hm : Mentions tree v) (hne : x ≠ "") (hboth : ¬ ('"' ∈ x.toList ∧ '\'' ∈ x.toList))
    (hq : ∀ q ∈ quoteOf v e, q ∉ x.toList) (hr : quoteOf v e = none → RunsFit x.toList) :
    ∃ e' quoted, renameOperand e v x = .ok (some e') ∧ hasMarker e' ∧
      Tree.parse (body e') = .ok (tree.renameFirst v x quoted) := by
  obtain ⟨front, run, rest, quote, h⟩ := exists_operandAt he hp hm
  rw [h.quoteOf_eq] at hq hr
  exact h.rename he hne hboth hq fun hn => (hr hn).tokenize_ne

/-! ### The config -/

variable {m : Mapping}

theorem isEmpty_of_get? (h : m.get? v = some x) : m.isEmpty = false := by
  have hmem := Fields.mem_keys_of_get? h
  unfold Fields.keys at hmem
  rw [Fields.isEmpty]
  cases he : m.entries with
  | nil => simp [he] at hmem
  | cons entry rest => rfl

theorem mapConfigEntries_list {items : List Value} (h : m.isEmpty = false) :
    m.mapConfigEntries (.list items) = m.mapValue (.list items) := by
  unfold mapConfigEntries
  rw [h]
  rfl

theorem mapConfigEntries_dict {es : List (Key × Value)} (h : m.isEmpty = false) :
    m.mapConfigEntries (.dict es) = m.mapValue (.dict es) := by
  unfold mapConfigEntries
  rw [h]
  rfl

/-- A marked text whose variable is renamed in it. -/
theorem mapValue_of_renamed {e' : String} (he : hasMarker e)
    (hv : extractVariable (.text e) = .ok (.text v)) (hx : m.get? v = some x)
    (hkey : m.get? e = none) (hr : renameOperand e v x = .ok (some e')) :
    m.mapValue (.text e) = .ok (.text e', [v]) := by
  rw [mapValue, mapText]
  simp only [hkey, he, hv, hx, hr, bind, Except.bind]
  rfl

/-- **Renaming keeps the structure of an expression.** A marked text is mapped wherever it stands in a
config: the new text is marked, and its tree is the old one with the first operand `v` renamed. The new
name must not hold the quote that this operand has; a bare operand needs a new name without a run of too
many digits. -/
theorem mapConfigEntries_expression (m : Mapping) (e v x : String) (tree : Tree)
    (he : hasMarker e) (hp : Tree.parse (body e) = .ok tree)
    (hv : extractVariable (.text e) = .ok (.text v)) (hx : m.get? v = some x)
    (hkey : m.get? e = none) (hm : Mentions tree v) (hne : x ≠ "")
    (hboth : ¬ ('"' ∈ x.toList ∧ '\'' ∈ x.toList)) (hq : ∀ q ∈ quoteOf v e, q ∉ x.toList)
    (hr : quoteOf v e = none → RunsFit x.toList) :
    ∃ e' quoted, hasMarker e' ∧ Tree.parse (body e') = .ok (tree.renameFirst v x quoted) ∧
      m.mapValue (.text e) = .ok (.text e', [v]) ∧
      m.mapConfigEntries (.list [.text e]) = .ok (.list [.text e'], [v]) ∧
      ∀ k, m.mapConfigEntries (.dict [(k, .text e)]) =
        .ok (.dict [((m.mapKey k).1, .text e')], (m.mapKey k).2 ++ [v]) := by
  obtain ⟨e', quoted, hrename, he', hp'⟩ := renameOperand_ok he hp hm hne hboth hq hr
  have hvalue := mapValue_of_renamed he hv hx hkey hrename
  refine ⟨e', quoted, he', hp', hvalue, ?_, fun k => ?_⟩
  · rw [mapConfigEntries_list (isEmpty_of_get? hx), mapValue, mapItems, hvalue]
    rfl
  · rw [mapConfigEntries_dict (isEmpty_of_get? hx), mapValue, mapEntries, hvalue]
    simp [bind, Except.bind, mapEntries, pure, Except.pure, Entries.putAll, Entries.put]

/-- A table with one name. -/
def ofPair (inner outer : String) : Mapping := Fields.insert ∅ inner outer

theorem get?_ofPair (inner outer : String) : (ofPair inner outer).get? inner = some outer := by
  rw [ofPair, Fields.get?_insert, if_pos rfl]

theorem get?_ofPair_of_ne {inner outer name : String} (h : name ≠ inner) :
    (ofPair inner outer).get? name = none := by
  rw [ofPair, Fields.get?_insert, if_neg (Ne.symm h)]
  rfl

/-- The first of two operands with one name gets single quotes, since its new name holds a double
quote. -/
theorem mapConfigEntries_expression_of_two :
    let e := "=2 * carbon - 'carbon'"
    let tree : Tree := .binary .sub (.binary .mul (.literal (.int 2)) (.name "carbon" false))
      (.name "carbon" true)
    let m := ofPair "carbon" "a\"b"
    hasMarker e ∧ Tree.parse (body e) = .ok tree ∧ extractVariable (.text e) = .ok (.text "carbon") ∧
      m.get? "carbon" = some "a\"b" ∧ m.get? e = none ∧ Mentions tree "carbon" ∧ "a\"b" ≠ "" ∧
      ¬ ('"' ∈ "a\"b".toList ∧ '\'' ∈ "a\"b".toList) ∧ quoteOf "carbon" e = none ∧
      RunsFit "a\"b".toList ∧
      ∃ e' quoted, hasMarker e' ∧ Tree.parse (body e') = .ok (tree.renameFirst "carbon" "a\"b" quoted) ∧
        m.mapValue (.text e) = .ok (.text e', ["carbon"]) ∧
        m.mapConfigEntries (.list [.text e]) = .ok (.list [.text e'], ["carbon"]) ∧
        ∀ k, m.mapConfigEntries (.dict [(k, .text e)]) =
          .ok (.dict [((m.mapKey k).1, .text e')], (m.mapKey k).2 ++ ["carbon"]) := by
  intro e tree m
  have he : hasMarker e := by decide
  have hp : Tree.parse (body e) = .ok tree := by decide +kernel
  have hv : extractVariable (.text e) = .ok (.text "carbon") :=
    extractVariable_of_open (by decide) (by decide +kernel)
  have ht : tokenize (behindMarker e) = .ok [⟨.number (.int 2), 0⟩, ⟨.times, 2⟩, ⟨.name "carbon", 4⟩,
      ⟨.minus, 11⟩, ⟨.quoted "carbon", 13⟩, ⟨.finish, 21⟩] := by
    decide +kernel
  have hq : quoteOf "carbon" e = none := by
    rw [quoteOf, ht]
    decide
  have hr : RunsFit "a\"b".toList := fun run hrun _ => hrun.length_le.trans (by decide)
  have hboth : ¬ ('"' ∈ "a\"b".toList ∧ '\'' ∈ "a\"b".toList) := by decide
  have hm : Mentions tree "carbon" := List.mem_cons_self
  exact ⟨he, hp, hv, rfl, by decide, hm, by decide, hboth, hq, hr,
    mapConfigEntries_expression m e "carbon" "a\"b" tree he hp hv rfl (by decide) hm (by decide)
      hboth (by simp [hq]) fun _ => hr⟩

/-- **An operand in double quotes keeps them**, also where its new name holds one: what comes out is no
expression. -/
theorem mapConfigEntries_expression_of_own_quote :
    let e := "=\"carbon\"*2"
    let tree : Tree := .binary .mul (.name "carbon" true) (.literal (.int 2))
    let m := ofPair "carbon" "a\"b"
    hasMarker e ∧ Tree.parse (body e) = .ok tree ∧ extractVariable (.text e) = .ok (.text "carbon") ∧
      m.get? "carbon" = some "a\"b" ∧ m.get? e = none ∧ Mentions tree "carbon" ∧ "a\"b" ≠ "" ∧
      ¬ ('"' ∈ "a\"b".toList ∧ '\'' ∈ "a\"b".toList) ∧
      m.mapConfigEntries (.list [.text e]) = .ok (.list [.text "=\"a\"b\"*2"], ["carbon"]) ∧
      ∀ t, Tree.parse (body "=\"a\"b\"*2") ≠ .ok t := by
  intro e tree m
  have he : hasMarker e := by decide
  have hv : extractVariable (.text e) = .ok (.text "carbon") :=
    extractVariable_of_open (by decide) (by decide +kernel)
  have hrename : renameOperand e "carbon" "a\"b" = .ok (some "=\"a\"b\"*2") := by
    decide +kernel
  have hvalue : m.mapValue (.text e) = .ok (.text "=\"a\"b\"*2", ["carbon"]) :=
    mapValue_of_renamed he hv rfl (by decide) hrename
  have hp : Tree.parse (body e) = .ok tree := by decide +kernel
  refine ⟨he, hp, hv, rfl, by decide, List.mem_cons_self, by decide, by decide, ?_, fun t ht => ?_⟩
  · rw [mapConfigEntries_list rfl, mapValue, mapItems, hvalue]
    rfl
  · have hparse : Tree.parse (body "=\"a\"b\"*2") = .error (.lexical '"' 4) := by decide +kernel
    rw [hparse] at ht
    cases ht

end Mapping

end RowPipeline
