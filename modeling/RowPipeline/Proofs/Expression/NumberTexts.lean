import RowPipeline.Proofs.Expression.Evaluation
import RowPipeline.Proofs.Expression.Spelling
import RowPipeline.Proofs.Numeral

/-!
# Whole numbers held as texts

A context may hold a whole number as such or as the text that it is written with. A number that is not
negative is written as a closed text (`isClosed_numeral`), which is worked out where a name leads to it;
a negative one is no expression and is read as it stands. Both count as the same number
(`finishedNumber_numeral`).

Evaluation has the same outcome in both contexts (`evaluate_numeral`), with one exception: a closed text
counts as an expression when chains are checked, so the field under evaluation may hold its number as
such but not as a text (`evaluate_numeral_of_own_field`). `SameUnless` is that relation of two outcomes;
it is kept by every step of an evaluation (`evaluateWith_same`).
-/

namespace RowPipeline

open Text

namespace Expression

variable {context : Record} {allow chain : List Key} {expression name s : String} {field n : Key}
  {value : Value} {k : Int}

/-! ### The text of a whole number as an expression -/

section Digits

variable {m : Nat}

/-- The digits of a number are one number token. -/
theorem scan?_toDigits (h : m < Numeral.bound) : Lexer.scan? (Nat.toDigits 10 m) =
    some ⟨Nat.toDigits 10 m, [], some (.number (.int m))⟩ := by
  have hpoint : (Nat.toDigits 10 m).contains '.' = false := by
    by_contra hp
    rw [Bool.not_eq_false, List.contains_iff_mem] at hp
    exact absurd (Numeral.isAsciiDigit_toDigits _ hp) (by decide)
  have hliteral : Lexer.literal? (Nat.toDigits 10 m) = some (.int m) := by
    rw [Lexer.literal?, hpoint, Numeral.ofDigits?_toDigits h]
    rfl
  have hname : Lexer.takeName? (Nat.toDigits 10 m) = none := by
    rw [Lexer.takeName?, List.dropWhile_eq_nil_iff.mpr Numeral.isAsciiDigit_toDigits]
  have hdigits := Numeral.isDigit_toDigits (n := m)
  cases hd : Nat.toDigits 10 m with
  | nil => exact absurd hd Nat.toDigits_ne_nil
  | cons c cs =>
    rw [hd] at hliteral hname hdigits
    have hnumber : Lexer.takeNumber? (c :: cs ++ []) = some (c :: cs, []) :=
      Lexer.takeNumber?_digits hdigits (by simp [Lexer.NoDigit]) (by simp)
    rw [List.append_nil] at hnumber
    rcases Lexer.scan?_of_digit cs (hdigits c (by simp)) with ⟨_, _, hname', -⟩ | ⟨-, _, _, hnumber', hs⟩
    · cases hname'.symm.trans hname
    · obtain ⟨rfl, rfl⟩ := Prod.mk.inj (Option.some.inj (hnumber'.symm.trans hnumber))
      rw [hs, hliteral]
      rfl

theorem parse_toDigits (h : m < Numeral.bound) :
    Tree.parse (Nat.toDigits 10 m) = .ok (.literal (.int m)) := by
  have hs : Lexer.scan? (Nat.toDigits 10 m ++ ([] ++ [])) =
      some ⟨Nat.toDigits 10 m, [] ++ [], some (.number (.int m))⟩ := by
    simpa using scan?_toDigits h
  have hr := Reads.cons hs (.blanks (by simp))
  rw [List.append_nil] at hr
  exact hr.parse_iff.mpr ⟨rfl, rfl⟩

theorem isClosedFrom_toDigits : isClosedFrom .number (Nat.toDigits 10 m) := by
  have hb := Numeral.isBlank_toDigits (n := m)
  have hdigits := Numeral.isDigit_toDigits (n := m)
  cases hd : Nat.toDigits 10 m with
  | nil => exact absurd hd Nat.toDigits_ne_nil
  | cons c cs =>
    rw [hd] at hb hdigits
    have := isClosedFrom_number_digits (hb c (by simp)) hdigits []
    rw [List.append_nil] at this
    rw [this]
    rfl

end Digits

section Plain

variable (hb : ∀ c ∈ s.toList, isBlank c = false) (hm : marker ∉ s.toList)

include hb hm

theorem hasMarker_of_plain : hasMarker s = false := by
  rw [hasMarker, trimLeft_eq_self hb]
  exact beq_false_of_ne fun he => hm (List.mem_of_mem_head? he)

/-- A text without blanks and markers is its own body. -/
theorem body_of_plain : body s = s.toList := by
  rw [body, trim_eq_self hb]
  cases hs : s.toList with
  | nil => rfl
  | cons c cs =>
    have hc : c ≠ marker := by
      rintro rfl
      exact hm (by simp [hs])
    simp [hc]

end Plain

section Numeral

variable {k : Int}

/-- The text of a whole number is digits, with a minus sign in front of a negative one. -/
theorem mem_numeral {c : Char} (h : Numeral.text? k = some s) (hc : c ∈ s.toList) :
    c = '-' ∨ isAsciiDigit c := by
  rcases lt_or_ge k 0 with hk | hk
  · rw [Numeral.toList_of_neg h hk] at hc
    exact (List.mem_cons.mp hc).imp id (Numeral.isAsciiDigit_toDigits c)
  · rw [Numeral.toList_of_nonneg h hk] at hc
    exact Or.inr (Numeral.isAsciiDigit_toDigits c hc)

theorem isBlank_numeral (h : Numeral.text? k = some s) : ∀ c ∈ s.toList, isBlank c = false := by
  intro c hc
  rcases mem_numeral h hc with rfl | hd
  · decide
  · exact isBlank_digit hd

theorem marker_not_mem_numeral (h : Numeral.text? k = some s) : marker ∉ s.toList := by
  intro hc
  rcases mem_numeral h hc with hm | hd
  · exact absurd hm (by decide)
  · exact absurd hd (by decide)

theorem hasMarker_numeral (h : Numeral.text? k = some s) : hasMarker s = false :=
  hasMarker_of_plain (isBlank_numeral h) (marker_not_mem_numeral h)

theorem body_numeral (h : Numeral.text? k = some s) : body s = s.toList :=
  body_of_plain (isBlank_numeral h) (marker_not_mem_numeral h)

theorem isClosed_numeral (h : Numeral.text? k = some s) : isClosed s = decide (0 ≤ k) := by
  rw [isClosed, body_numeral h]
  rcases lt_or_ge k 0 with hk | hk
  · rw [Numeral.toList_of_neg h hk, isClosedFrom_number_eq_false (by decide) (by decide)]
    simp [hk]
  · rw [Numeral.toList_of_nonneg h hk, isClosedFrom_toDigits]
    simp [hk]

theorem needsEvaluation_numeral (h : Numeral.text? k = some s) :
    needsEvaluation (.text s) = decide (0 ≤ k) := by
  rw [needsEvaluation, hasMarker_numeral h, isClosed_numeral h, Bool.false_or]

/-- A number that is not negative comes back from its text. -/
theorem evaluateClosed_numeral (h : Numeral.text? k = some s) (hk : 0 ≤ k) :
    evaluateClosed s = .ok (some (.int k)) := by
  have hparse : Tree.parse (body s) = .ok (.literal (.int k)) := by
    rw [body_numeral h, Numeral.toList_of_nonneg h hk, parse_toDigits (Numeral.natAbs_lt_of_text? h),
      Int.natAbs_of_nonneg hk]
  have hrender : (Tree.literal (.int k)).render = .ok s := by
    have ht : (Number.int k).text? = some s := h
    rw [Tree.render, Tree.renderWith, Number.print, ht]
    rfl
  refine bind_eq_ok_iff.mpr ⟨_, hparse, bind_eq_ok_iff.mpr ⟨s, hrender, ?_⟩⟩
  exact bind_eq_ok_iff.mpr ⟨.int k, rfl, rfl⟩

/-- The text of a whole number counts as that number. -/
theorem toNumber_numeral (h : Numeral.text? k = some s) : (Value.text s).toNumber = .ok (some (.int k)) := by
  rw [Value.toNumber, Number.ofText?, Numeral.readInt?_text h]

/-- A whole number and its text count as the same number. -/
theorem finishedNumber_numeral (h : Numeral.text? k = some s) :
    finishedNumber name (.text s) = finishedNumber name (.int k) := by
  simp only [finishedNumber, numberOf, toNumber_numeral h]
  rfl

end Numeral

/-! ### The same outcome unless it is a circular reference -/

section Same

variable {α β : Type} {p : Prop} {x y : Except Failure α}

/-- Two outcomes are the same, unless the first one is a circular reference and `p` holds. -/
def SameUnless (p : Prop) (x y : Except Failure α) : Prop :=
  x = y ∨ p ∧ ∃ failure : Failure, failure.isCircular ∧ x = .error failure

theorem SameUnless.refl : SameUnless p x x := Or.inl rfl

theorem SameUnless.bind {f g : α → Except Failure β} (h : SameUnless p x y)
    (hf : ∀ a, SameUnless p (f a) (g a)) : SameUnless p (x.bind f) (y.bind g) := by
  rcases h with rfl | ⟨hp, failure, hc, rfl⟩
  · cases x with
    | ok a => exact hf a
    | error failure => exact Or.inl rfl
  · exact Or.inr ⟨hp, failure, hc, rfl⟩

theorem resolveOperands_same {f g : String → Traced Number} : ∀ {ops : List (String × Bool)}
    {done : List Number}, (∀ op ∈ ops, SameUnless p (f op.1).outcome (g op.1).outcome) →
    SameUnless p (resolveOperands f tree done ops).outcome (resolveOperands g tree done ops).outcome
  | [], _, _ => .refl
  | (name, divisor) :: ops, done, h => by
    simp only [resolveOperands, Traced.outcome_bind]
    refine (h (name, divisor) (by simp)).bind fun a => ?_
    split
    · exact .refl
    · exact resolveOperands_same fun op hop => h op (by simp [hop])

/-- **One step**: a field has the same outcome where its names have. -/
theorem evaluateWith_same {resolve resolve' : String → String → Traced Number}
    (ht : field = timestamp → context'.get? timestamp = context.get? timestamp)
    (h : ∀ s name, SameUnless p (resolve' s name).outcome (resolve s name).outcome) :
    SameUnless p (evaluateWith resolve' context' allow field value).outcome
      (evaluateWith resolve context allow field value).outcome := by
  rcases evaluateWith_cases context allow field value with ⟨s, tree, rfl, hr, ha⟩ | ⟨_, -, ho⟩
  · rw [evaluateWith_of_tree hr ha, evaluateWith_of_tree hr ha, Traced.outcome_bind,
      Traced.outcome_bind]
    exact (resolveOperands_same fun op _ => h s op.1).bind fun values => .refl
  · rw [ho _ _ ht, ho _ _ fun _ => rfl]
    exact .refl

end Same

/-! ### Numbers as such and as texts -/

section Numeral

variable {k : Int} {n : Key}

theorem allows_allowAlso (allow : List Key) (name : String) :
    allows (allowAlso allow name) (.text name) := by
  unfold allows allowAlso
  split
  · rfl
  · simp

/-- The text of a number gives the number where its own name stands, on a chain without it. -/
theorem finished_numeral {resolve : String → String → Traced Number}
    (h : Numeral.text? k = some s) (hk : 0 ≤ k) (hv : context.get? (.text name) = some (.text s)) :
    (evaluateWith resolve context (allowAlso allow name) (.text name) (.text s) >>=
      fun result => Traced.lift (finishedNumber name result)).outcome =
        finishedNumber name (.int k) := by
  rw [Traced.outcome_bind]
  by_cases hf : Scalar.text name = timestamp
  · rw [hf, evaluateWith_timestamp, ← hf, hv]
    exact finishedNumber_numeral h
  · have hc : isClosed s := by
      rw [isClosed_numeral h]
      exact decide_eq_true hk
    rw [evaluateWith_of_closed hf (allows_allowAlso allow name) hc, evaluateClosed_numeral h hk]
    rfl

/-- **A name has the same number**, whether a context holds a whole number or its text. -/
theorem resolve_numeral (h : Numeral.text? k = some s) (context : Record) (n : Key)
    (chain : List Key) (name : String) : ∀ allow expression, (n ∈ chain → n = field) →
      SameUnless (n = field ∧ 0 ≤ k)
        (resolve (context.insert n (.text s)) allow chain expression name).outcome
        (resolve (context.insert n (.int k)) allow chain expression name).outcome := by
  induction chain, name using chain_induction (context.insert n (.text s)) with
  | step chain name ih =>
  intro allow expression hchain
  by_cases hname : n = .text name
  · subst hname
    have hint : (context.insert (.text name) (.int k)).get? (.text name) = some (.int k) := by simp
    have htext : (context.insert (.text name) (.text s)).get? (.text name) = some (.text s) := by simp
    have hplain : resolve (context.insert (.text name) (.int k)) allow chain expression name =
        Traced.lift (finishedNumber name (.int k)) := resolve_of_plain hint rfl
    rw [hplain, Traced.outcome_lift]
    rcases lt_or_ge k 0 with hk | hk
    · have hn : needsEvaluation (.text s) = false := by
        rw [needsEvaluation_numeral h]
        exact decide_eq_false (not_le.mpr hk)
      rw [resolve_of_plain htext hn, finishedNumber_numeral h]
      exact .refl
    · have hn : needsEvaluation (.text s) := by
        rw [needsEvaluation_numeral h]
        exact decide_eq_true hk
      cases hc : chain.contains (.text name) with
      | true =>
        rw [resolve_of_chain htext hn hc]
        exact Or.inr ⟨⟨hchain (by simpa using hc), hk⟩, _, rfl, rfl⟩
      | false =>
        rw [resolve_of_expression htext hn hc, finished_numeral h hk htext]
        exact .refl
  · have hget : ∀ v : Value, (context.insert n v).get? (.text name) = context.get? (.text name) := by
      intro v
      rw [Fields.get?_insert, if_neg hname]
    cases hv : context.get? (.text name) with
    | none =>
      rw [resolve_of_none ((hget _).trans hv), resolve_of_none ((hget _).trans hv)]
      exact .refl
    | some value =>
      rw [resolve_of_some ((hget _).trans hv), resolve_of_some ((hget _).trans hv)]
      split
      · split
        · exact .refl
        rename_i hn hc
        rw [Traced.outcome_bind, Traced.outcome_bind]
        refine (evaluateWith_same ?_ fun s' next => ?_).bind fun result => .refl
        · intro ht
          rw [← ht, hget, hget]
        · refine ih value ((hget _).trans hv) (by simpa using hc) next _ _ fun hmem => hchain ?_
          rcases List.mem_append.mp hmem with hmem | hmem
          · exact hmem
          · exact absurd (List.mem_singleton.mp hmem) hname
      · exact .refl

/-- **A whole number may be held as a text.** For every value, allow list, context and key, a whole
number and its text lead to the same outcome of a field, unless the number is not negative and held under
the name of that field: its text may then be a circular reference. -/
theorem evaluate_numeral (context : Record) (allow : List Key) (field n : Key) (value : Value) (k : Int)
    (s : String) (h : Numeral.text? k = some s) (hf : field ≠ timestamp) :
    (evaluate (context.insert n (.text s)) allow field value).outcome =
        (evaluate (context.insert n (.int k)) allow field value).outcome ∨
      (n = field ∧ 0 ≤ k) ∧ ∃ failure : Failure, failure.isCircular ∧
        (evaluate (context.insert n (.text s)) allow field value).outcome = .error failure := by
  refine evaluateWith_same (fun ht => absurd ht hf) fun expression name => ?_
  exact resolve_numeral h context n [field] name allow expression fun hn => List.mem_singleton.mp hn

/-- The number is reached through another expression, as a divisor. -/
theorem evaluate_numeral_of_divisor : Numeral.text? 4 = some "4" ∧
    Scalar.text "share" ≠ timestamp ∧
    (evaluate ((Fields.insert ∅ (.text "total") (.text "=6/cores")).insert (.text "cores") (.text "4"))
      [] (.text "share") (.text "=total*2")).outcome =
    (evaluate ((Fields.insert ∅ (.text "total") (.text "=6/cores")).insert (.text "cores") (.int 4))
      [] (.text "share") (.text "=total*2")).outcome := by
  have h : Numeral.text? 4 = some "4" := by decide +kernel
  have hf : Scalar.text "share" ≠ timestamp := by decide
  refine ⟨h, hf, ?_⟩
  rcases evaluate_numeral (Fields.insert ∅ (.text "total") (.text "=6/cores")) [] (.text "share")
    (.text "cores") (.text "=total*2") 4 "4" h hf with he | ⟨⟨hn, -⟩, -⟩
  · exact he
  · exact absurd hn (by decide)

/-- **The field itself**: `=x*2` in the field `x` doubles the number 5, but the text `5` is a circular
reference. -/
theorem evaluate_numeral_of_own_field : Numeral.text? 5 = some "5" ∧ Scalar.text "x" ≠ timestamp ∧
    (evaluate (Fields.insert ∅ (.text "x") (.int 5)) [] (.text "x") (.text "=x*2")).outcome =
      .ok (.int 10) ∧
    (evaluate (Fields.insert ∅ (.text "x") (.text "5")) [] (.text "x") (.text "=x*2")).outcome =
      .error (.arithmetic (.circular "=x*2" ["x", "x"])) := by
  have hr : ReadsAs (.text "x") "=x*2" (.binary .mul (.name "x" false) (.literal (.int 2))) :=
    ⟨by decide, by decide, by decide, by cbv⟩
  refine ⟨by decide +kernel, by decide, ?_, ?_⟩
  · have hx : (resolve (Fields.insert ∅ (.text "x") (.int 5)) [] [.text "x"] "=x*2" "x").outcome =
        .ok (.int 5) := resolve_of_int rfl
    have hf : (finish "=x*2" (.text "x") (.binary .mul (.name "x" false) (.literal (.int 2)))
        [.int 5]).outcome = .ok (some (.int 10)) := by decide +kernel
    rw [evaluate, evaluateWith_of_one hr rfl rfl hx, hf]
    rfl
  · refine evaluateWith_of_first hr rfl rfl ?_
    rw [resolve_of_chain rfl (by decide) (by decide)]
    rfl

end Numeral

end Expression

end RowPipeline
