import RowPipeline.Proofs.Expression.ClosedText
import RowPipeline.Proofs.Mapping.Configs
import RowPipeline.Proofs.Plugin.Runs
import RowPipeline.Stock.Implementation

/-!
# Runs without arithmetic

A plugin without a list of fields evaluates nothing. Its runs still fail for arithmetic at one place, and
only there (`execute_arithmetic_iff`): where the config is mapped, a marked text that is no internal name is
looked into for the name that it refers to (`Mapping.Balks`). If the text is closed it is worked out,
although nobody asked for its value; so `=1/0` in a config fails as soon as the table is not empty
(`execute_arithmetic_of_closed`). If the table has the name, the text and the new name are read as tokens,
and a numeral of too many digits is a failure. The rows and the answer are never looked into.
-/

namespace RowPipeline

open Text Expression

/-! ### Failures of arithmetic -/

/-- Whether a failure is about an expression: about its text, its names or its numbers. -/
def Failure.isArithmetic : Failure → Bool
  | raised kind _ => kind.isArithmetic
  | arithmetic cause => cause.kind.isArithmetic
  | numeralTooLong | overflow | unknownOperator _ | signallingNumber | notClosed _ => true
  | _ => false

theorem Failure.isArithmetic_of_isNumeric {failure : Failure} (h : failure.isNumeric)
    (hw : failure ≠ .wrongType) : failure.isArithmetic := by
  cases failure with
  | wrongType => exact absurd rfl hw
  | arithmetic cause => cases cause <;> rfl
  | raised | lexical | parse | signallingNumber | notClosed | notDictionary | missingKey | unexpected
  | invalidSchema | unresolvedReference | noBranchLocation => cases h
  | numeralTooLong | unknownOperator | overflow => rfl

theorem Number.print_ne_wrongType (a : Number) : a.print ≠ .error .wrongType := by
  intro h
  cases Number.print_error_eq h

theorem Operator.apply_ne_wrongType (op : Operator) (a b : Number) (source : String) :
    op.apply a b source ≠ .error .wrongType := by
  have hbounded : ∀ result : Option Number,
      result.elim (.error .overflow) Except.ok ≠ Except.error Failure.wrongType := by
    rintro (_ | result) <;> simp
  cases op with
  | add => exact hbounded _
  | sub => exact hbounded _
  | mul => exact hbounded _
  | div =>
    simp only [Operator.apply]
    split
    · simp
    · exact hbounded _
  | other symbol => simp [Operator.apply]

namespace Tree

/-- A tree that reads as tokens has no hole, so writing it never fails for one. -/
theorem renderWith_ne_wrongType {write : String → Bool → Except Failure String}
    (hw : ∀ text quoted, write text quoted ≠ .error .wrongType) :
    ∀ {t : Tree} {ls : List Lexeme}, t.inOrder = some ls → t.renderWith write ≠ .error .wrongType
  | literal a, _, _, hf => a.print_ne_wrongType hf
  | name text quoted, _, _, hf => hw text quoted hf
  | binary op left right, ls, h, hf => by
    obtain ⟨ll, l, lr, hl, -, hr, -⟩ := inOrder_binary h
    rcases bind_eq_error_iff.mp hf with hf | ⟨_, -, hf⟩
    · exact renderWith_ne_wrongType hw hl hf
    rcases bind_eq_error_iff.mp hf with hf | ⟨_, -, hf⟩
    · exact renderWith_ne_wrongType hw hr hf
    · cases hf

theorem compute_ne_wrongType {value : String → Except Failure Number} {source : String}
    (hv : ∀ text, value text ≠ .error .wrongType) :
    ∀ {t : Tree} {ls : List Lexeme}, t.inOrder = some ls → t.compute value source ≠ .error .wrongType
  | literal a, _, _, hf => by cases hf
  | name text quoted, _, _, hf => hv text hf
  | binary op left right, ls, h, hf => by
    obtain ⟨ll, l, lr, hl, -, hr, -⟩ := inOrder_binary h
    rcases bind_eq_error_iff.mp hf with hf | ⟨a, -, hf⟩
    · exact compute_ne_wrongType hv hl hf
    rcases bind_eq_error_iff.mp hf with hf | ⟨b, -, hf⟩
    · exact compute_ne_wrongType hv hr hf
    · exact op.apply_ne_wrongType a b source hf

end Tree

namespace Expression

theorem evaluateClosed_ne_wrongType (s : String) : evaluateClosed s ≠ .error .wrongType := by
  intro h
  rcases bind_eq_error_iff.mp h with hp | ⟨tree, hp, h⟩
  · rcases Tree.parse_error hp with hf | ⟨_, _, hf⟩ | ⟨_, hf⟩ <;> cases hf
  obtain ⟨ls, hls⟩ := inOrder_of_parse hp
  rcases bind_eq_error_iff.mp h with hr | ⟨source, -, h⟩
  · exact Tree.renderWith_ne_wrongType (fun _ _ => by simp) hls hr
  rcases bind_eq_error_iff.mp h with hc | ⟨a, -, h⟩
  · exact Tree.compute_ne_wrongType (fun _ => by simp) hls hc
  · unfold Number.finalize at h
    split at h <;> cases h

/-- A closed text that has no value has none for its arithmetic. -/
theorem isArithmetic_of_evaluateClosed {s : String} {failure : Failure} (hc : isClosed s)
    (h : evaluateClosed s = .error failure) : failure.isArithmetic :=
  Failure.isArithmetic_of_isNumeric (evaluateClosed_error hc h) fun hw =>
    evaluateClosed_ne_wrongType s (hw ▸ h)

end Expression

theorem Mapping.Balks.isArithmetic {m : Mapping} {s : String} {failure : Failure}
    (h : m.Balks s failure) : failure.isArithmetic := by
  obtain ⟨-, -, h⟩ := h
  split at h
  · rename_i hc
    exact isArithmetic_of_evaluateClosed hc h
  · obtain ⟨rfl, -⟩ := h
    rfl

/-! ### Runs -/

namespace Descriptor

variable {d : Descriptor} {config : Record} {m : Mapping} {rows : List Record} {failure : Failure}

/-- What a validator or the implementation itself raises in a run with a mapped config, if the plugin
evaluates nothing. -/
inductive Raises (d : Descriptor) (config : Record) (m : Mapping) (rows : List Record)
    (failure : Failure) : Prop
  | config : (d.configValidator.acceptConfig config).outcome = .error failure →
      Raises d config m rows failure
  | row {accepted row : Record} {j : Nat} :
      (d.configValidator.acceptConfig config).outcome = .ok accepted → rows[j]? = some row →
        (d.rowValidator.acceptRow row accepted j).outcome = .error failure →
          Raises d config m rows failure
  | implementation {call : Call} : (d.prepare config m rows).outcome = .ok call →
      (d.implementation call).rows = .error failure → Raises d config m rows failure

/-- Accepting rows fails at one of them. -/
theorem acceptRows_error {v : Validator} : ∀ {index : Nat} {rows : List Record},
    (acceptRows v config m index rows).outcome = .error failure →
      ∃ j row, rows[j]? = some row ∧ (v.acceptRow row config (index + j)).outcome = .error failure
  | index, [], h => by cases h
  | index, row :: rows, h => by
    rw [acceptRows] at h
    rcases Traced.bind_error_iff.mp h with hrow | ⟨_, -, h⟩
    · exact ⟨0, row, rfl, hrow⟩
    rcases Traced.bind_error_iff.mp h with hrest | ⟨_, -, h⟩
    · obtain ⟨j, row', hj, hfail⟩ := acceptRows_error hrest
      exact ⟨j + 1, row', hj, by rwa [← Nat.add_assoc, Nat.add_right_comm]⟩
    · cases h

/-- Without arithmetic only the validators keep the implementation from being called. -/
theorem raises_of_prepare (ha : d.allow = none)
    (h : (d.prepare config m rows).outcome = .error failure) : d.Raises config m rows failure := by
  rw [prepare] at h
  rcases Traced.bind_error_iff.mp h with heval | ⟨evaluated, heval, h⟩
  · rw [evaluateAll, ha] at heval
    cases heval
  rw [evaluateAll, ha] at heval
  obtain rfl : (config, rows, none) = evaluated := Except.ok.inj heval
  rcases Traced.bind_error_iff.mp h with haccept | ⟨accepted, haccept, h⟩
  · exact .config haccept
  rcases Traced.bind_error_iff.mp h with hemit | ⟨_, -, h⟩
  · cases hemit
  have hconfig : d.configForRows accepted = .ok accepted := by
    rw [configForRows, evaluates_of_allow ha]
    rfl
  rcases Traced.bind_error_iff.mp h with hfail | ⟨rowConfig, hrow, h⟩
  · rw [Traced.outcome_monadLift, hconfig] at hfail
    cases hfail
  rw [Traced.outcome_monadLift, hconfig] at hrow
  obtain rfl := Except.ok.inj hrow
  rcases Traced.bind_error_iff.mp h with hrows | ⟨_, -, h⟩
  · obtain ⟨j, row, hj, hfail⟩ := acceptRows_error hrows
    exact .row haccept hj (by rwa [Nat.zero_add] at hfail)
  · cases h

/-- **Why a run fails** that evaluates nothing: the config is not mapped, a validator or the implementation
raises, or the answer has another number of rows. -/
theorem run_error (ha : d.allow = none)
    (h : (d.run config m rows).result.outcome = .error failure) :
    m.mapRecord config = .error failure ∨
      (∃ mapped left, m.mapRecord config = .ok (mapped, left) ∧ d.Raises mapped left rows failure) ∨
        ∃ given expected, failure = miscounted given expected := by
  rw [run_outcome] at h
  rcases bind_eq_error_iff.mp h with hmap | ⟨⟨mapped, left⟩, hmap, h⟩
  · exact Or.inl hmap
  rcases bind_eq_error_iff.mp h with hprepare | ⟨call, hprepare, h⟩
  · exact Or.inr (Or.inl ⟨mapped, left, hmap, raises_of_prepare ha hprepare⟩)
  rcases bind_eq_error_iff.mp h with hanswer | ⟨outputs, -, h⟩
  · exact Or.inr (Or.inl ⟨mapped, left, hmap, .implementation hprepare hanswer⟩)
  rw [finish_of_allow ha] at h
  split at h
  · exact Or.inr (Or.inr ⟨outputs.length, _, (Except.error.inj h).symm⟩)
  · cases h

/-- Without validators only the implementation raises something. -/
theorem not_raises_of_plain (hp : d.Plain)
    (hi : ∀ call, (d.implementation call).rows ≠ .error failure) :
    ¬ d.Raises config m rows failure := by
  rintro (h | ⟨-, -, h⟩ | ⟨-, h⟩)
  · rw [hp.configValidator] at h
    cases h
  · rw [hp.rowValidator] at h
    cases h
  · exact hi _ h

end Descriptor

namespace Instance

open Descriptor

/-- **Where arithmetic fails although it is off.** If a plugin evaluates nothing and neither its validators
nor its implementation raise a failure of arithmetic, an execution fails for arithmetic iff the table is
not empty and balks at a text that stands somewhere in the config. -/
theorem execute_arithmetic_iff (i : Instance) (rows : List Record) (ha : i.descriptor.allow = none)
    (hq : ∀ mapped left failure, i.mapping.mapRecord i.config = .ok (mapped, left) →
      i.descriptor.Raises mapped left rows failure → failure.isArithmetic = false) :
    (∃ failure, (i.execute rows).1.outcome = .error failure ∧ failure.isArithmetic) ↔
      i.mapping.isEmpty = false ∧
        ∃ s failure, (Value.ofRecord i.config).HoldsText s ∧ i.mapping.Balks s failure := by
  constructor
  · rintro ⟨failure, h, harith⟩
    rw [execute_outcome] at h
    rcases run_error ha h with hmap | ⟨mapped, left, hmap, hraises⟩ | ⟨given, expected, rfl⟩
    · obtain ⟨hne, s, hs, hb⟩ := Mapping.mapRecord_error hmap
      exact ⟨hne, s, failure, hs, hb⟩
    · rw [hq mapped left failure hmap hraises] at harith
      cases harith
    · cases harith
  · rintro ⟨hne, s, failure, hs, hb⟩
    obtain ⟨failure', hmap⟩ := Mapping.mapRecord_of_balks hne hs hb
    have hout : (i.execute rows).1.outcome = .error failure' := by
      rw [execute_outcome, run_outcome, hmap]
      rfl
    obtain ⟨-, s', -, hb'⟩ := Mapping.mapRecord_error hmap
    exact ⟨failure', hout, hb'.isArithmetic⟩

/-- An expression over `carbon` and a quotient without marker in the config, and a division by zero in the
row: nothing fails for arithmetic. -/
theorem execute_arithmetic_of_product :
    let i := ofCarbon (Stock.Implementation.run .identity)
      ⟨[(.text "rate", .text "=carbon*2"), (.text "share", .text "1/0")], by decide⟩ .snapshot
    let row : Record := ⟨[(.text "x", .text "=1/0")], by decide⟩
    i.descriptor.allow = none ∧
      (∀ mapped left failure, i.mapping.mapRecord i.config = .ok (mapped, left) →
        i.descriptor.Raises mapped left [row] failure → failure.isArithmetic = false) ∧
      ¬ ∃ failure, (i.execute [row]).1.outcome = .error failure ∧ failure.isArithmetic := by
  intro i row
  have hq : ∀ mapped left failure, i.mapping.mapRecord i.config = .ok (mapped, left) →
      i.descriptor.Raises mapped left [row] failure → failure.isArithmetic = false :=
    fun _ _ _ _ h => absurd h (not_raises_of_plain (plain_ofCarbon _ _ _) fun _ hi => nomatch hi)
  refine ⟨rfl, hq, mt (execute_arithmetic_iff i [row] rfl hq).mp ?_⟩
  rintro ⟨-, s, failure, hs, -, hmark, hb⟩
  have htext : s = "=carbon*2" ∨ s = "1/0" := by
    cases hs with
    | entry he hs =>
      rcases List.mem_cons.mp he with he | he
      · obtain ⟨-, rfl⟩ := Prod.mk.inj he
        cases hs
        exact Or.inl rfl
      · obtain ⟨-, rfl⟩ := Prod.mk.inj (List.mem_singleton.mp he)
        cases hs
        exact Or.inr rfl
  rcases htext with rfl | rfl
  · have hc : isClosed "=carbon*2" = false := by decide
    rw [hc] at hb
    obtain ⟨-, e, he, hlong⟩ := hb
    have hfit : ∀ cs : List Char, cs.length ≤ Numeral.maxDigits → tokenize cs ≠ .error .numeralTooLong :=
      fun cs hcs => RunsFit.tokenize_ne fun run hrun _ => hrun.length_le.trans hcs
    have hsubject : Mapping.subject "=carbon*2" = "carbon" := by decide +kernel
    rw [hsubject] at he
    obtain rfl : "carbon-product" = e := Option.some.inj he
    cases hlong with
    | inExpression h => exact hfit _ (by decide) h
    | inName _ _ h => exact hfit _ (by decide) h
  · revert hmark
    decide

/-- **A division by zero that nobody asked for**: the closed text of the config is worked out where the
config is mapped, although the plugin evaluates nothing. -/
theorem execute_arithmetic_of_closed :
    let i := ofCarbon (Stock.Implementation.run .identity) ⟨[(.text "a", .text "=1/0")], by decide⟩ .snapshot
    i.descriptor.Plain ∧ (∀ call, (i.descriptor.implementation call).rows = .ok call.rows) ∧
      (i.execute [⟨[(.text "x", .int 1)], by decide⟩]).1.outcome =
        .error (.arithmetic (.divisionByZero "1/0")) := by
  intro i
  have hdiv : evaluateClosed "=1/0" = .error (.arithmetic (.divisionByZero "1/0")) := by decide +kernel
  have htext : i.mapping.mapText "=1/0" = .error (.arithmetic (.divisionByZero "1/0")) :=
    Mapping.mapText_eq_error_iff.mpr ⟨rfl, by decide, by rwa [if_pos (by decide)]⟩
  have hmap : i.mapping.mapRecord i.config = .error (.arithmetic (.divisionByZero "1/0")) := by
    change (i.mapping.mapEntries [(.text "a", .text "=1/0")]).bind _ = _
    rw [Mapping.mapEntries, Mapping.mapValue, htext]
    rfl
  refine ⟨plain_ofCarbon _ _ _, fun _ => rfl, ?_⟩
  rw [execute_outcome, run_outcome, hmap]
  rfl

end Instance

end RowPipeline
