import RowPipeline.Command
import RowPipeline.Proofs.Expression.Catalogue

/-!
# The command that evaluates

A command shows every error of the catalogue as a line and ends with a status; any other failure leaves it
(`Command.fail_escaped_iff`). So the command that evaluates a text is left where the evaluation comes upon
numbers that are too large, and where its result has too many digits to be printed
(`Command.runEval_escaped_iff`). Where nothing is too large, an evaluation ends in a value or in one of the
four errors of expressions (`Expression.evaluate_catalogued_iff`).
-/

namespace RowPipeline

/-- Of the values without parts only a whole number may have no text. -/
theorem Value.text?_eq_none_iff {v : Value} (hb : v.isBasic) :
    v.text? = none ↔ ∃ n, v = .int n ∧ Numeral.bound ≤ n.natAbs := by
  have hint : ∀ n : Int, Numeral.text? n = none ↔ Numeral.bound ≤ n.natAbs := by
    intro n
    rw [Numeral.text?, ← not_lt]
    simp
  cases v with
  | scalar k =>
    cases k with
    | int n =>
      rw [text?, Scalar.text?, hint]
      simp
    | decimal d => cases hb
    | _ => simp [text?, Scalar.text?]
  | list items => cases hb
  | dict entries => cases hb

/-- The errors of arithmetic that callers can look up. -/
theorem Failure.catalogue_isArithmetic :
    Failure.Catalogue fun failure => ∃ kind, failure.kind? = some kind ∧ kind.isArithmetic where
  arithmetic cause := ⟨cause.kind, rfl, by cases cause <;> rfl⟩
  not_long := by simp [kind?]
  not_overflow := by simp [kind?]

/-- The errors that callers can look up. -/
theorem Failure.catalogue_kind : Failure.Catalogue fun failure => failure.kind? ≠ none where
  arithmetic cause := by simp [kind?]
  not_long := by simp [kind?]
  not_overflow := by simp [kind?]

namespace Command

open Expression

/-- A failure leaves a command iff it is no error that callers can look up. -/
theorem fail_escaped_iff {log : List OutputLine} {failure : Failure} :
    (∃ failure', fail log failure = .escaped failure') ↔ failure.kind? = none := by
  unfold fail
  split
  · rename_i kind hk
    simp [hk]
  · rename_i hk
    simp [hk]

/-- **What leaves the command**: numbers that are too large on the way, or a result that is too long. -/
theorem runEval_escaped_iff {given : Record} (hb : BasicContext given) (level : LogLevel) (s name : String) :
    (∃ failure, runEval level s given name = .escaped failure) ↔
      Exceeds given [] [.text name] (.text name) s ∨
        ∃ n, (evaluate given [] (.text name) (.text s)).outcome = .ok (.int n) ∧
          Numeral.bound ≤ n.natAbs := by
  have hexceeds : EndsIn (fun failure => failure.kind? ≠ none)
      (evaluate given [] (.text name) (.text s)).outcome ↔
        ¬ Exceeds given [] [.text name] (.text name) s :=
    endsIn_evaluate_iff Failure.catalogue_kind hb
  unfold runEval
  simp only
  cases hout : (evaluate given [] (.text name) (.text s)).outcome with
  | error failure =>
    rw [hout, endsIn_error_iff, not_iff_not] at hexceeds
    simp only [fail_escaped_iff, hexceeds, reduceCtorEq, false_and, exists_false, or_false]
  | ok v =>
    rw [hout] at hexceeds
    have hstays : ¬ Exceeds given [] [.text name] (.text name) s := hexceeds.mp (endsIn_ok v)
    have hlong := Value.text?_eq_none_iff (isBasic_of_evaluateWith hb hout)
    simp only [hstays, false_or, Except.ok.injEq, ← hlong]
    have htext : (if v.isNull then some "NaN" else v.text?) = none ↔ v.text? = none := by
      unfold Value.isNull
      split <;> simp [Value.text?, Scalar.text?]
    rw [← htext]
    cases (if v.isNull then some "NaN" else v.text?) <;> simp

end Command

namespace Expression

/-- **The errors of an evaluation.** Whatever the text, the field, the allow list and the values of the
context are, evaluating a text ends in a value or in one of four errors of the catalogue, unless numbers on the
way are too large. And the command ends in lines and a status, unless they are or its result has too many
digits. -/
theorem evaluate_catalogued_iff (context : Record) (allow : List Key) (field : Key) (s name : String)
    (level : LogLevel) (hb : BasicContext context) :
    (((∃ v, (evaluate context allow field (.text s)).outcome = .ok v) ∨
        ∃ failure kind, (evaluate context allow field (.text s)).outcome = .error failure ∧
          failure.kind? = some kind ∧ kind.isArithmetic) ↔
      ¬ Exceeds context allow [field] field s) ∧
    ((∃ failure, Command.runEval level s context name = .escaped failure) ↔
      Exceeds context [] [.text name] (.text name) s ∨
        ∃ n, (evaluate context [] (.text name) (.text s)).outcome = .ok (.int n) ∧
          Numeral.bound ≤ n.natAbs) := by
  refine ⟨?_, Command.runEval_escaped_iff hb level s name⟩
  rw [← endsIn_evaluate_iff Failure.catalogue_isArithmetic hb]
  constructor
  · rintro (⟨v, hv⟩ | ⟨failure, kind, hf, hk⟩)
    · rw [hv]
      exact endsIn_ok v
    · rw [hf]
      exact endsIn_error_iff.mpr ⟨kind, hk⟩
  · intro h
    cases hout : (evaluate context allow field (.text s)).outcome with
    | ok v => exact Or.inl ⟨v, rfl⟩
    | error failure =>
      obtain ⟨kind, hk⟩ := h failure hout
      exact Or.inr ⟨failure, kind, rfl, hk⟩

/-- A division by zero on the way is an error of the catalogue, so no number is too large. -/
theorem evaluate_catalogued_of_division :
    let context : Record := ⟨[(.text "total", .text "=6/cores"), (.text "cores", .int 0)], by decide⟩
    BasicContext context ∧
      (evaluate context [] (.text "share") (.text "=total*2")).outcome =
        .error (.arithmetic (.divisionByZero "6/0")) ∧
      ¬ Exceeds context [] [.text "share"] (.text "share") "=total*2" := by
  intro context
  have hb : BasicContext context := basicContext_of_entries (by decide)
  have htotal : ReadsAs (.text "total") "=6/cores"
      (.binary .div (.literal (.int 6)) (.name "cores" false)) :=
    ⟨by decide, by decide, by decide, by cbv⟩
  have hshare : ReadsAs (.text "share") "=total*2"
      (.binary .mul (.name "total" false) (.literal (.int 2))) :=
    ⟨by decide, by decide, by decide, by cbv⟩
  have hout : (evaluate context [] (.text "share") (.text "=total*2")).outcome =
      .error (.arithmetic (.divisionByZero "6/0")) := by
    have hcores : (resolve context [] [.text "share", .text "total"] "=6/cores" "cores").outcome =
        .ok (.int 0) := resolve_of_int rfl
    have hzero : (evaluateWith (resolve context [] [.text "share", .text "total"]) context []
        (.text "total") (.text "=6/cores")).outcome = .error (.arithmetic (.divisionByZero "6/0")) := by
      rw [evaluateWith_of_tree htotal rfl]
      refine Traced.bind_error_iff.mpr (Or.inl (Traced.bind_error_iff.mpr (Or.inr ⟨.int 0, hcores, ?_⟩)))
      decide +kernel
    refine evaluateWith_of_first hshare rfl rfl ?_
    rw [resolve_of_expression rfl htotal.needsEvaluation (by decide)]
    exact Traced.bind_error_iff.mpr (Or.inl hzero)
  refine ⟨hb, hout, ?_⟩
  exact (evaluate_catalogued_iff context [] (.text "share") "=total*2" "share" .unset hb).1.mp
    (Or.inr ⟨_, _, hout, rfl, rfl⟩)

/-- **A number beyond the doubles** that is divided by three: the quotient has no double, and the failure is
none of the catalogue. -/
theorem evaluate_catalogued_of_large_quotient :
    let context : Record := ⟨[(.text "a", .int (10 ^ 400))], by decide⟩
    BasicContext context ∧
      (evaluate context [] (.text "x") (.text "=a/3")).outcome = .error .overflow ∧
      Failure.overflow.kind? = none := by
  intro context
  have hb : BasicContext context := basicContext_of_entries (by decide)
  have hread : ReadsAs (.text "x") "=a/3" (.binary .div (.name "a" false) (.literal (.int 3))) :=
    ⟨by decide, by decide, by decide, by cbv⟩
  have ha : (resolve context [] [.text "x"] "=a/3" "a").outcome = .ok (.int (10 ^ 400)) := resolve_of_int rfl
  have hf : (finish "=a/3" (.text "x") (.binary .div (.name "a" false) (.literal (.int 3)))
      [.int (10 ^ 400)]).outcome = .error .overflow := by decide +kernel
  refine ⟨hb, ?_, rfl⟩
  rw [evaluate, evaluateWith_of_one hread rfl rfl ha, hf]
  rfl

end Expression

end RowPipeline
