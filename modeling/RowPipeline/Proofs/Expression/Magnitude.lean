import RowPipeline.Proofs.Expression.ClosedText
import RowPipeline.Proofs.Numeral
import RowPipeline.Proofs.Range

/-!
# Numbers that are too large

Whole numbers have no bound, but two things that are done to them have one: a number of more than
`Numeral.maxDigits` digits cannot be written (`Number.TooLong`), and one of `Double.limit` or more cannot
meet a double, nor can a quotient of whole numbers that comes to so much (`Operator.Overflows`).

Nothing else takes numbers out of the errors of arithmetic. A tree of numbers is written first, to be shown
where something is divided by zero, and worked out then; so its value ends in a number or in such an error iff
no number in it is too long and nothing overflows on the way (`Tree.endsIn_value_iff`). That is said of every
class of failures that tells the two apart (`Failure.Catalogue`).
-/

namespace RowPipeline

/-! ### Outcomes that callers can tell -/

/-- A class of failures with every error of arithmetic in it, and neither failure of size. -/
structure Failure.Catalogue (G : Failure → Prop) : Prop where
  arithmetic : ∀ cause, G (.arithmetic cause)
  not_long : ¬ G .numeralTooLong
  not_overflow : ¬ G .overflow

/-- A value, or a failure of a class. -/
def EndsIn {α : Type} (G : Failure → Prop) (x : Except Failure α) : Prop :=
  ∀ failure, x = .error failure → G failure

section EndsIn

variable {α β : Type} {G : Failure → Prop} {x : Except Failure α} {f : α → Except Failure β}

@[simp] theorem endsIn_ok (a : α) : EndsIn G (.ok a : Except Failure α) := by
  rintro failure ⟨⟩

@[simp] theorem endsIn_error_iff {failure : Failure} :
    EndsIn G (.error failure : Except Failure α) ↔ G failure := by
  simp [EndsIn]

theorem Failure.Catalogue.endsIn (hG : Failure.Catalogue G) (cause : ArithmeticError) :
    EndsIn G (.error (.arithmetic cause) : Except Failure α) :=
  endsIn_error_iff.mpr (hG.arithmetic cause)

/-- Where no failure is of the class, only a value ends in it. -/
theorem endsIn_iff_ok (h : ∀ failure, x = .error failure → ¬ G failure) :
    EndsIn G x ↔ ∃ a, x = .ok a := by
  cases x with
  | ok a => simp
  | error failure => simpa using h failure rfl

theorem endsIn_bind_iff : EndsIn G (x.bind f) ↔ EndsIn G x ∧ ∀ a, x = .ok a → EndsIn G (f a) := by
  cases x <;> simp [Except.bind]

theorem endsIn_map_iff {g : α → β} : EndsIn G (x.map g) ↔ EndsIn G x := by
  cases x <;> simp [Except.map]

end EndsIn

/-! ### Numbers -/

namespace Number

variable {a b : Number}

/-- A whole number with too many digits to be written. -/
def TooLong : Number → Prop
  | int n => Numeral.bound ≤ n.natAbs
  | float _ => False

theorem print_ok_iff (a : Number) : (∃ s, a.print = .ok s) ↔ ¬ a.TooLong := by
  have hint : ∀ n : Int, (∃ s, (int n).print = .ok s) ↔ ¬ (int n).TooLong := by
    intro n
    have htext : (int n).text? = Numeral.text? n := rfl
    rw [print, htext, Numeral.text?, TooLong, not_le]
    split <;> simp [*]
  cases a with
  | int n => exact hint n
  | float x =>
    refine iff_of_true ?_ id
    have hsafe : maxSafe < Numeral.bound := by decide +kernel
    have hform : (∃ n : Int, (float x).normalize = int n ∧ n.natAbs ≤ maxSafe) ∨
        (float x).normalize = float x := by
      rw [normalize]
      split
      · split
        · exact Or.inl ⟨_, rfl, by assumption⟩
        · exact Or.inr rfl
      · exact Or.inr rfl
    rcases hform with ⟨n, hn, hsmall⟩ | hx
    · obtain ⟨s, hs⟩ := (hint n).mpr (not_le.mpr (hsmall.trans_lt hsafe))
      refine ⟨s, ?_⟩
      rw [← hs, print, print, text?, hn]
      rfl
    · refine ⟨x.text, ?_⟩
      rw [print, text?, hx]
      rfl

/-- A whole number beyond the doubles next to a double. -/
def Clash : Number → Number → Prop
  | int n, float _ => Double.limit ≤ n.natAbs
  | float _, int n => Double.limit ≤ n.natAbs
  | _, _ => False

theorem doubleOfInt?_eq_none_iff {n : Int} : doubleOfInt? n = none ↔ Double.limit ≤ n.natAbs := by
  rw [← not_lt, ← Double.isFinite_ofInt, doubleOfInt?]
  simp

/-- An operation on doubles fails for the whole numbers that are none. -/
theorem viaDouble_eq_none_iff {op : Double → Double → Double} :
    viaDouble op a b = none ↔ a.toDouble? = none ∨ b.toDouble? = none := by
  unfold viaDouble
  cases a.toDouble? <;> cases b.toDouble? <;> simp

theorem add_eq_none_iff : a.add b = none ↔ Clash a b := by
  cases a <;> cases b <;> simp [add, viaDouble_eq_none_iff, toDouble?, doubleOfInt?_eq_none_iff, Clash]

theorem sub_eq_none_iff : a.sub b = none ↔ Clash a b := by
  cases a <;> cases b <;> simp [sub, viaDouble_eq_none_iff, toDouble?, doubleOfInt?_eq_none_iff, Clash]

theorem mul_eq_none_iff : a.mul b = none ↔ Clash a b := by
  cases a <;> cases b <;> simp [mul, viaDouble_eq_none_iff, toDouble?, doubleOfInt?_eq_none_iff, Clash]

/-- A quotient of whole numbers beyond the doubles. -/
def LargeQuotient : Number → Number → Prop
  | int m, int n => n.natAbs * Double.limit ≤ m.natAbs
  | _, _ => False

theorem div_eq_none_iff (hb : b.isZero = false) : a.div b = none ↔ Clash a b ∨ LargeQuotient a b := by
  cases a with
  | int m =>
    cases b with
    | int n =>
      have hn : n ≠ 0 := by simpa [isZero] using hb
      rw [div, LargeQuotient, ← not_lt, ← Double.isFinite_ofQuotient m hn]
      simp [Clash]
    | float y =>
      simp [div, viaDouble_eq_none_iff, toDouble?, doubleOfInt?_eq_none_iff, Clash, LargeQuotient]
  | float x =>
    cases b <;>
      simp [div, viaDouble_eq_none_iff, toDouble?, doubleOfInt?_eq_none_iff, Clash, LargeQuotient]

theorem endsIn_finalize {G : Failure → Prop} (hG : Failure.Catalogue G) (a : Number) (source : String) :
    EndsIn G (a.finalize source) := by
  unfold finalize
  split
  · exact endsIn_ok _
  · exact hG.endsIn _
  · exact endsIn_ok _

end Number

namespace Operator

variable {op : Operator} {a b : Number} {G : Failure → Prop}

/-- An operator takes two numbers beyond the doubles; a division by zero does not. -/
def Overflows (op : Operator) (a b : Number) : Prop :=
  if op = .div then b.isZero = false ∧ (a.Clash b ∨ a.LargeQuotient b) else a.Clash b

/-- **Applying an operator** ends in a number or an error of arithmetic unless it overflows. -/
theorem endsIn_apply_iff (hG : Failure.Catalogue G) {l : Lexeme} (hop : Lexeme.ofOperator? op = some l)
    (source : String) : EndsIn G (op.apply a b source) ↔ ¬ op.Overflows a b := by
  have hbounded : ∀ result : Option Number,
      EndsIn G (result.elim (.error .overflow) Except.ok) ↔ ¬ result = none := by
    rintro (_ | result) <;> simp [hG.not_overflow]
  cases op with
  | add => exact (hbounded _).trans (not_congr Number.add_eq_none_iff)
  | sub => exact (hbounded _).trans (not_congr Number.sub_eq_none_iff)
  | mul => exact (hbounded _).trans (not_congr Number.mul_eq_none_iff)
  | div =>
    rw [apply, Overflows, if_pos rfl]
    cases hb : b.isZero with
    | true => simp [hG.arithmetic]
    | false => simpa using (hbounded _).trans (not_congr (Number.div_eq_none_iff hb))
  | other symbol => cases hop

/-- What an operator gives does not depend on the expression that it reports. -/
theorem apply_source {c : Number} {source : String} (source' : String) (h : op.apply a b source = .ok c) :
    op.apply a b source' = .ok c := by
  cases op with
  | div =>
    rw [apply] at h ⊢
    split at h
    · cases h
    · rename_i hb
      rw [if_neg hb]
      exact h
  | other symbol => cases h
  | _ => exact h

end Operator

/-! ### Trees -/

namespace Tree

variable {t : Tree} {ls : List Lexeme} {G : Failure → Prop}

/-- A number in the tree is too long. -/
def HoldsLong : Tree → Prop
  | literal a => a.TooLong
  | binary _ left right => left.HoldsLong ∨ right.HoldsLong
  | _ => False

/-- **A tree can be written** iff no number in it is too long, and nothing else can go wrong. -/
theorem renderWith_ok_iff {write : String → Bool → Except Failure String}
    (hw : ∀ text quoted, ∃ s, write text quoted = .ok s) (ho : t.inOrder = some ls) :
    (∃ s, t.renderWith write = .ok s) ↔ ¬ t.HoldsLong := by
  induction t generalizing ls with
  | literal a => exact a.print_ok_iff
  | name text quoted => exact iff_of_true (hw text quoted) id
  | binary op left right ihl ihr =>
    obtain ⟨ll, l, lr, hl, -, hr, -⟩ := inOrder_binary ho
    rw [HoldsLong, not_or, ← ihl hl, ← ihr hr]
    constructor
    · rintro ⟨s, h⟩
      obtain ⟨sl, hsl, h⟩ := bind_eq_ok_iff.mp h
      obtain ⟨sr, hsr, -⟩ := bind_eq_ok_iff.mp h
      exact ⟨⟨sl, hsl⟩, sr, hsr⟩
    · rintro ⟨⟨sl, hsl⟩, sr, hsr⟩
      exact ⟨_, bind_eq_ok_iff.mpr ⟨sl, hsl, bind_eq_ok_iff.mpr ⟨sr, hsr, rfl⟩⟩⟩
  | hole => cases ho

theorem renderWith_error_eq {write : String → Bool → Except Failure String} {failure : Failure}
    (hw : ∀ text quoted, ∃ s, write text quoted = .ok s) (ho : t.inOrder = some ls)
    (h : t.renderWith write = .error failure) : failure = .numeralTooLong := by
  induction t generalizing ls with
  | literal a => exact Number.print_error_eq h
  | name text quoted =>
    obtain ⟨s, hs⟩ := hw text quoted
    cases hs.symm.trans h
  | binary op left right ihl ihr =>
    obtain ⟨ll, l, lr, hl, -, hr, -⟩ := inOrder_binary ho
    rcases bind_eq_error_iff.mp h with h | ⟨_, -, h⟩
    · exact ihl hl h
    rcases bind_eq_error_iff.mp h with h | ⟨_, -, h⟩
    · exact ihr hr h
    · cases h
  | hole => cases ho

/-- Writing a tree ends in a text or outside of the catalogue. -/
theorem endsIn_renderWith_iff (hG : Failure.Catalogue G)
    {write : String → Bool → Except Failure String}
    (hw : ∀ text quoted, ∃ s, write text quoted = .ok s) (ho : t.inOrder = some ls) :
    EndsIn G (t.renderWith write) ↔ ¬ t.HoldsLong := by
  rw [← renderWith_ok_iff hw ho]
  refine endsIn_iff_ok fun failure hf => ?_
  rw [renderWith_error_eq hw ho hf]
  exact hG.not_long

/-- The number that a tree without names comes to. -/
def ComesTo (t : Tree) (a : Number) : Prop := t.compute (fun _ => .error .missingKey) "" = .ok a

/-- An operator in the tree takes the numbers of its sides beyond the doubles, and what is worked out
before comes to numbers. -/
def Overflows : Tree → Prop
  | binary op left right =>
    left.Overflows ∨ ∃ a, left.ComesTo a ∧ (right.Overflows ∨ ∃ b, right.ComesTo b ∧ op.Overflows a b)
  | _ => False

/-- The number of a tree without names depends neither on names nor on the expression that is reported. -/
theorem compute_ok {value value' : String → Except Failure Number} {source source' : String} {a : Number}
    (hn : t.names = []) (h : t.compute value source = .ok a) : t.compute value' source' = .ok a := by
  induction t generalizing a with
  | literal b => exact h
  | name text quoted => cases hn
  | binary op left right ihl ihr =>
    obtain ⟨hnl, hnr⟩ := List.append_eq_nil_iff.mp hn
    obtain ⟨b, hb, h⟩ := bind_eq_ok_iff.mp h
    obtain ⟨c, hc, h⟩ := bind_eq_ok_iff.mp h
    refine bind_eq_ok_iff.mpr ⟨b, ihl hnl hb, bind_eq_ok_iff.mpr ⟨c, ihr hnr hc, ?_⟩⟩
    exact Operator.apply_source source' h
  | hole => cases h

theorem compute_ok_iff {value : String → Except Failure Number} {source : String} {a : Number}
    (hn : t.names = []) : t.compute value source = .ok a ↔ t.ComesTo a :=
  ⟨compute_ok hn, compute_ok hn⟩

/-- **Working out a tree** ends in a number or an error of arithmetic unless it overflows. -/
theorem endsIn_compute_iff (hG : Failure.Catalogue G) {value : String → Except Failure Number}
    {source : String} (hn : t.names = []) (ho : t.inOrder = some ls) :
    EndsIn G (t.compute value source) ↔ ¬ t.Overflows := by
  induction t generalizing ls with
  | literal a => exact iff_of_true (endsIn_ok a) id
  | name text quoted => cases hn
  | binary op left right ihl ihr =>
    obtain ⟨hnl, hnr⟩ := List.append_eq_nil_iff.mp hn
    obtain ⟨ll, l, lr, hl, hop, hr, -⟩ := inOrder_binary ho
    have hright : ∀ a, EndsIn G ((right.compute value source).bind fun b => op.apply a b source) ↔
        ¬ (right.Overflows ∨ ∃ b, right.ComesTo b ∧ op.Overflows a b) := by
      intro a
      rw [endsIn_bind_iff, ihr hnr hr]
      simp only [compute_ok_iff hnr, Operator.endsIn_apply_iff hG hop, not_or, not_exists, not_and]
    have hbinary : EndsIn G ((binary op left right).compute value source) ↔
        EndsIn G (left.compute value source) ∧ ∀ a, left.compute value source = .ok a →
          EndsIn G ((right.compute value source).bind fun b => op.apply a b source) :=
      endsIn_bind_iff
    rw [hbinary, ihl hnl hl, Overflows]
    simp only [compute_ok_iff hnl, hright, not_or, not_exists, not_and]
  | hole => cases ho

/-- A number in the tree is too long, or the tree overflows. -/
def TooLarge (t : Tree) : Prop := t.HoldsLong ∨ t.Overflows

/-- **The value of a tree of numbers** ends in a number, in no value or in an error of arithmetic, unless the
tree is too large. It is written before it is worked out, whether or not the text is needed. -/
theorem endsIn_value_iff (hG : Failure.Catalogue G) {write : String → Bool → Except Failure String}
    {value : String → Except Failure Number} (hw : ∀ text quoted, ∃ s, write text quoted = .ok s)
    (hn : t.names = []) (ho : t.inOrder = some ls) :
    EndsIn G ((t.renderWith write).bind fun source =>
      (t.compute value source).bind fun a => a.finalize source) ↔ ¬ t.TooLarge := by
  have hvalue : ∀ source, EndsIn G ((t.compute value source).bind fun a => a.finalize source) ↔
      ¬ t.Overflows := by
    intro source
    rw [endsIn_bind_iff, endsIn_compute_iff hG hn ho]
    exact and_iff_left fun a _ => a.endsIn_finalize hG source
  rw [endsIn_bind_iff, endsIn_renderWith_iff hG hw ho, TooLarge, not_or]
  refine and_congr_right fun hshort => ?_
  obtain ⟨s, hs⟩ := (renderWith_ok_iff hw ho).mpr hshort
  simp only [hvalue]
  exact ⟨fun h => h s hs, fun h _ _ => h⟩

/-! ### Literals -/

/-- A literal is not negative, and it has no more digits than a numeral may have. -/
theorem exists_nat_of_literal? {run : List Char} {n : Int} (h : Lexer.literal? run = some (.int n)) :
    ∃ m : Nat, n = m ∧ m < Numeral.bound := by
  unfold Lexer.literal? at h
  split at h
  · cases h
  · obtain ⟨k, hk, heq⟩ := Option.map_eq_some_iff.mp h
    obtain ⟨m, hm, hcast⟩ := Option.bind_eq_some_iff.mp hk
    obtain rfl : k = n := Number.int.inj heq
    exact ⟨m, (Option.some.inj hcast).symm, Numeral.lt_of_ofDigits? hm⟩

/-- A literal that is read can be written. -/
theorem not_tooLong_of_literal? {run : List Char} {a : Number} (h : Lexer.literal? run = some a) :
    ¬ a.TooLong := by
  cases a with
  | float x => exact id
  | int n =>
    obtain ⟨m, rfl, hm⟩ := exists_nat_of_literal? h
    exact not_le.mpr hm

/-- The number of a token is what its run denotes. -/
theorem literal?_of_scan? {cs : List Char} {m : Lexer.Match} {a : Number} (h : Lexer.scan? cs = some m)
    (ha : m.lexeme? = some (.number a)) : Lexer.literal? m.run = some a := by
  cases cs with
  | nil => cases h
  | cons c cs =>
    rcases Lexer.scan?_cases h with ⟨l, hop, rfl⟩ | ⟨-, -, run, rest, -, rfl⟩ |
      ⟨-, -, run, rest, -, rfl⟩ | ⟨-, -, -, run, rest, -, rfl⟩
    · obtain rfl : l = .number a := Option.some.inj ha
      cases (Expression.operator?_eq_some hop).2.2.1
    · cases ha
    · cases ha
    · obtain ⟨b, hb, heq⟩ := Option.map_eq_some_iff.mp ha
      rw [hb, Lexeme.number.inj heq]

/-- Every number among the tokens of a text can be written. -/
theorem not_tooLong_of_tokens (c : Cursor) {all : List Token} (h : c.tokens = .ok all) :
    ∀ t ∈ all, ∀ a, t.lexeme = .number a → ¬ a.TooLong := by
  induction c using Cursor.reading_induction generalizing all with
  | finish c hd =>
    rw [Cursor.tokens_of_end hd] at h
    obtain rfl := Except.ok.inj h
    simp
  | foreign c ch cs hd hs =>
    rw [Cursor.tokens_of_foreign hd hs] at h
    cases h
  | long c ch cs m hd hs hl =>
    rw [Cursor.tokens_of_long hd hs hl] at h
    cases h
  | lexeme c ch cs m l hd hs hl ih =>
    rw [Cursor.tokens_of_lexeme hd hs hl] at h
    obtain ⟨more, hmore, rfl⟩ := map_eq_ok_iff.mp h
    intro t ht a ha
    rcases List.mem_cons.mp ht with rfl | ht
    · exact not_tooLong_of_literal? (literal?_of_scan? hs (hl.trans (congrArg some ha)))
    · exact ih _ hmore t ht a ha

theorem holdsLong_iff (ho : t.inOrder = some ls) :
    t.HoldsLong ↔ ∃ a, Lexeme.number a ∈ ls ∧ a.TooLong := by
  induction t generalizing ls with
  | literal a =>
    obtain rfl : [Lexeme.number a] = ls := Option.some.inj ho
    simp [HoldsLong]
  | name text quoted =>
    obtain rfl : [if quoted then Lexeme.quoted text else .name text] = ls := Option.some.inj ho
    cases quoted <;> simp [HoldsLong]
  | binary op left right ihl ihr =>
    obtain ⟨ll, l, lr, hl, hop, hr, rfl⟩ := inOrder_binary ho
    have hsign : ∀ a, Lexeme.number a ≠ l := by
      rintro a rfl
      cases Lexeme.isOperator_of_ofOperator? hop
    rw [HoldsLong, ihl hl, ihr hr]
    simp [hsign, or_and_right, exists_or]
  | hole => cases ho

/-- **Every number of a text that is read can be written.** -/
theorem not_holdsLong_of_parse {cs : List Char} (hp : parse cs = .ok t) : ¬ t.HoldsLong := by
  obtain ⟨ts, finish, ht, -, ho⟩ := tokens_of_parse hp
  rw [holdsLong_iff ho]
  rintro ⟨a, ha, hlong⟩
  obtain ⟨token, htoken, hlexeme⟩ := List.mem_map.mp ha
  exact not_tooLong_of_tokens _ ht token (List.mem_append_left _ htoken) a hlexeme hlong

/-! ### Trees with numbers in the place of names -/

/-- Numbers take the place of the first names, and what is left of either is left over. -/
theorem fill_names (t : Tree) (values : List Number) :
    (t.fill values).1.names = t.names.drop values.length ∧
      (t.fill values).2 = values.drop t.names.length := by
  induction t generalizing values with
  | literal a => simp [fill, names]
  | name text quoted => cases values <;> simp [fill, names]
  | binary op left right ihl ihr =>
    obtain ⟨hl, hlrest⟩ := ihl values
    obtain ⟨hr, hrrest⟩ := ihr (values.drop left.names.length)
    constructor
    · simp only [fill, names, hl, hr, hlrest, List.length_drop, List.drop_append]
    · simp only [fill, names, hrrest, hlrest, List.drop_drop, List.length_append]
  | hole => simp [fill, names]

theorem fill_nil (t : Tree) : t.fill [] = (t, []) := by
  induction t with
  | literal a => rfl
  | name text quoted => rfl
  | binary op left right ihl ihr => simp only [fill, ihl, ihr]
  | hole => rfl

theorem names_fill_eq_nil {values : List Number} (h : t.names.length ≤ values.length) :
    (t.fill values).1.names = [] := by
  rw [(t.fill_names values).1]
  exact List.drop_eq_nil_of_le h

theorem inOrder_fill (values : List Number) (ho : t.inOrder = some ls) :
    ∃ ls', (t.fill values).1.inOrder = some ls' := by
  induction t generalizing ls values with
  | literal a => exact ⟨_, rfl⟩
  | name text quoted => cases values <;> exact ⟨_, rfl⟩
  | binary op left right ihl ihr =>
    obtain ⟨ll, l, lr, hl, hop, hr, -⟩ := inOrder_binary ho
    obtain ⟨ll', hl'⟩ := ihl values hl
    obtain ⟨lr', hr'⟩ := ihr (left.fill values).2 hr
    exact ⟨ll' ++ l :: lr', by simp [fill, inOrder, hl', hop, hr']⟩
  | hole => cases ho

end Tree

end RowPipeline
