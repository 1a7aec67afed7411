import RowPipeline.Plugin
import RowPipeline.Proofs.Expression.Evaluation
import RowPipeline.Proofs.Outcome

/-!
# The call among the events of a run

A run calls the implementation at one place only. Whatever happens before and after, evaluating and
validating, is quiet (`Traced.Quiet`): sequences of quiet steps are quiet (`Quiet.bind`), so everything
that is put together from them is. Hence an implementation is called iff `prepare` succeeds, and then with
what `prepare` gave (`Instance.called_iff`).
-/

namespace RowPipeline

/-- Whether an event is a call of the implementation. -/
def Event.isCall : Event → Bool
  | called .. => true
  | _ => false

namespace Traced

variable {α β : Type} {x : Traced α} {e : Event}

/-- The events of two steps. -/
theorem mem_events_bind {f : α → Traced β} : e ∈ (x >>= f).events ↔
    e ∈ x.events ∨ ∃ a, x.outcome = .ok a ∧ e ∈ (f a).events := by
  obtain ⟨outcome, events⟩ := x
  cases outcome <;> simp [Bind.bind, Traced.bind]

/-- Nothing is called. -/
def Quiet (x : Traced α) : Prop := ∀ e ∈ x.events, e.isCall = false

theorem Quiet.bind {f : α → Traced β} (hx : Quiet x) (hf : ∀ a, Quiet (f a)) : Quiet (x >>= f) := by
  intro e he
  rcases mem_events_bind.mp he with he | ⟨a, -, he⟩
  · exact hx e he
  · exact hf a e he

theorem Quiet.map (f : α → β) (hx : Quiet x) : Quiet (f <$> x) := by
  rw [map_eq_pure_bind]
  exact hx.bind fun a => by simp [Quiet, Pure.pure, Traced.pure]

theorem quiet_pure (a : α) : Quiet (pure a : Traced α) := by simp [Quiet, Pure.pure, Traced.pure]

theorem quiet_lift (outcome : Except Failure α) : Quiet (lift outcome) := by simp [Quiet, lift]

theorem quiet_monadLift (outcome : Except Failure α) : Quiet (liftM outcome : Traced α) :=
  quiet_lift outcome

theorem quiet_fail (failure : Failure) : Quiet (fail failure : Traced α) := by simp [Quiet, fail]

theorem quiet_emit (h : e.isCall = false) : Quiet (emit e) := by simpa [Quiet, emit] using h

end Traced

open Traced

/-! ### Evaluating -/

namespace Expression

variable {context : Record} {allow chain : List Key} {expression name : String} {field : Key}
  {value : Value} {tree : Tree}

theorem quiet_resolveOperands {f : String → Traced Number} (h : ∀ name, Quiet (f name)) :
    ∀ (ops : List (String × Bool)) (done : List Number), Quiet (resolveOperands f tree done ops)
  | [], done => quiet_pure done
  | (name, divisor) :: ops, done => by
    rw [resolveOperands]
    refine (h name).bind fun a => ?_
    dsimp only
    split
    · exact (quiet_monadLift _).bind fun source => quiet_fail _
    · exact quiet_resolveOperands h ops _

theorem quiet_finish (expression : String) (field : Key) (tree : Tree) (values : List Number) :
    Quiet (finish expression field tree values) := by
  rw [finish]
  refine (quiet_monadLift _).bind fun source => (quiet_monadLift _).bind fun computed => ?_
  refine (quiet_monadLift _).bind fun result => (quiet_emit rfl).bind fun _ => quiet_pure _

theorem quiet_evaluateWith {f : String → String → Traced Number} (h : ∀ s name, Quiet (f s name)) :
    Quiet (evaluateWith f context allow field value) := by
  unfold evaluateWith
  split
  · exact quiet_pure _
  split
  · split
    · exact quiet_pure _
    split
    · exact quiet_lift _
    · refine (quiet_monadLift _).bind fun tree => ?_
      refine (quiet_resolveOperands (h _) _ _).bind fun values => ?_
      exact (quiet_finish _ _ tree values).map _
  · exact quiet_pure _

theorem quiet_resolve : Quiet (resolve context allow chain expression name) := by
  induction chain, name using chain_induction context generalizing allow expression with
  | step chain name ih =>
    cases hv : context.get? (.text name) with
    | none =>
      rw [resolve_of_none hv]
      exact quiet_fail _
    | some value =>
      rw [resolve_of_some hv]
      split
      · split
        · exact quiet_fail _
        · rename_i hc
          refine Quiet.bind (quiet_evaluateWith fun s next => ?_) fun result => quiet_lift _
          exact ih value hv (by simpa using hc) next
      · exact quiet_lift _

theorem quiet_evaluate : Quiet (evaluate context allow field value) :=
  quiet_evaluateWith fun _ _ => quiet_resolve

end Expression

namespace Record

theorem quiet_evaluateFields : ∀ (done : Record) (rest : List (Key × Value)),
    Quiet (evaluateFields done rest)
  | done, [] => quiet_pure done
  | done, (field, raw) :: rest => by
    rw [evaluateFields]
    exact Expression.quiet_evaluate.bind fun result => quiet_evaluateFields _ rest

theorem quiet_evaluateAllowed (row : Record) (allow : List Key) :
    ∀ (done : Record) (rest : List (Key × Value)), Quiet (evaluateAllowed row allow done rest)
  | done, [] => quiet_pure done
  | done, (field, raw) :: rest => by
    rw [evaluateAllowed]
    split
    · refine (quiet_monadLift _).bind fun _ => Expression.quiet_evaluate.bind fun result => ?_
      exact quiet_evaluateAllowed row allow _ rest
    · exact quiet_evaluateAllowed row allow done rest

theorem quiet_evaluateOutput (parameter : Key) (row : Record) : Quiet (evaluateOutput parameter row) := by
  unfold evaluateOutput
  dsimp only
  split
  · split
    · refine (quiet_monadLift _).bind fun shaped => ?_
      split
      · exact quiet_fail _
      · exact quiet_pure _
    · refine (quiet_monadLift _).bind fun tree => ?_
      split
      · exact quiet_fail _
      · refine (quiet_monadLift _).bind fun raw => ?_
        split
        · exact quiet_fail _
        · exact Expression.quiet_evaluate.bind fun result => quiet_pure _
  · exact quiet_pure _

end Record

/-! ### Validating -/

namespace Validator

theorem quiet_acceptConfig (config : Record) (v : Validator) : Quiet (v.acceptConfig config) := by
  cases v with
  | passThrough => exact quiet_pure config
  | function f =>
    exact (quiet_emit rfl).bind fun _ => (quiet_lift _).bind fun accepted => quiet_pure _
  | checker c => exact quiet_lift _

theorem quiet_acceptRow (row config : Record) (index : Nat) (v : Validator) :
    Quiet (v.acceptRow row config index) := by
  cases v with
  | passThrough => exact quiet_pure row
  | function f =>
    exact (quiet_emit rfl).bind fun _ => (quiet_lift _).bind fun accepted => quiet_pure _
  | checker c => exact quiet_lift _

end Validator

/-! ### Around the call -/

namespace Descriptor

variable {d : Descriptor} {config : Record} {mapping : Mapping} {rows outputs : List Record}

theorem quiet_evaluateRows (config : Record) (allow : List Key) : ∀ (last : Option Record)
    (rows : List Record), Quiet (evaluateRows config allow last rows)
  | last, [] => quiet_pure _
  | last, row :: rows => by
    rw [evaluateRows]
    refine (Record.quiet_evaluateFields _ _).bind fun row => ?_
    refine (Record.quiet_evaluateAllowed _ _ _ _).bind fun evaluated => ?_
    exact (quiet_evaluateRows config allow _ rows).bind fun rest => quiet_pure _

theorem quiet_evaluateAll : Quiet (d.evaluateAll config rows) := by
  rw [evaluateAll]
  split
  · exact quiet_pure _
  · refine (quiet_monadLift _).bind fun config => ?_
    exact (quiet_evaluateRows _ _ _ _).bind fun evaluated => quiet_pure _

theorem quiet_acceptRows (v : Validator) (config : Record) (mapping : Mapping) :
    ∀ (index : Nat) (rows : List Record), Quiet (acceptRows v config mapping index rows)
  | index, [] => quiet_pure _
  | index, row :: rows => by
    rw [acceptRows]
    refine (v.quiet_acceptRow _ _ _).bind fun accepted => ?_
    exact (quiet_acceptRows v config mapping _ rows).bind fun rest => quiet_pure _

theorem quiet_prepare : Quiet (d.prepare config mapping rows) := by
  rw [prepare]
  refine quiet_evaluateAll.bind fun evaluated => ?_
  refine (d.configValidator.quiet_acceptConfig _).bind fun config => (quiet_emit rfl).bind fun _ => ?_
  refine (quiet_monadLift _).bind fun rowConfig => ?_
  exact (quiet_acceptRows _ _ _ _ _).bind fun rows => quiet_pure _

theorem quiet_evaluateOutputs (parameter : Key) : ∀ outputs : List Record,
    Quiet (evaluateOutputs parameter outputs)
  | [] => quiet_pure _
  | output :: outputs => by
    rw [evaluateOutputs]
    refine (Record.quiet_evaluateOutput _ _).bind fun output => ?_
    exact (quiet_evaluateOutputs parameter outputs).bind fun rest => quiet_pure _

theorem quiet_finish : Quiet (d.finish mapping rows outputs) := by
  rw [finish]
  split
  · exact quiet_fail _
  dsimp only
  split
  · exact (quiet_pure _).bind fun outputs => quiet_pure _
  · refine (quiet_emit rfl).bind fun _ => ?_
    exact (quiet_evaluateOutputs _ _).bind fun outputs => quiet_pure _

/-- **The call of a run** is the one that was prepared. -/
theorem called_iff {rows' : List Record} {config' : Record} :
    Event.called rows' config' ∈ (d.runMapped config mapping rows).result.events ↔
      ∃ call, (d.prepare config mapping rows).outcome = .ok call ∧ call.rows = rows' ∧
        call.config = config' := by
  constructor
  · intro h
    rcases mem_events_bind.mp h with h | ⟨call, hcall, h⟩
    · cases quiet_prepare _ h
    rcases mem_events_bind.mp h with h | ⟨_, -, h⟩
    · obtain ⟨rfl, rfl⟩ := Event.called.inj (List.mem_singleton.mp h)
      exact ⟨call, hcall, rfl, rfl⟩
    · have hrest : Quiet (lift (d.implementation call).rows >>= fun outputs =>
          d.finish (d.implementation call).mapping (d.implementation call).given outputs) :=
        (quiet_lift _).bind fun outputs => quiet_finish
      rw [show (d.prepare config mapping rows).outcome = .ok call from hcall] at h
      cases hrest _ h
  · rintro ⟨call, hcall, rfl, rfl⟩
    refine mem_events_bind.mpr (Or.inr ⟨call, hcall, ?_⟩)
    exact mem_events_bind.mpr (Or.inl (List.mem_singleton.mpr rfl))

end Descriptor

namespace Instance

variable {i : Instance} {rows rows' : List Record} {config' : Record}

/-- A failure is reported by an event of its own. -/
theorem called_reportFailure {α : Type} {result : Traced α} :
    Event.called rows' config' ∈ (reportFailure result).events ↔
      Event.called rows' config' ∈ result.events := by
  unfold reportFailure
  split
  · rfl
  · simp

/-- **An implementation is called iff the call was prepared**, with the config as it is mapped. -/
theorem called_iff : Event.called rows' config' ∈ (i.execute rows).1.events ↔
    ∃ mapped left call, i.mapping.mapRecord i.config = .ok (mapped, left) ∧
      (i.descriptor.prepare mapped left rows).outcome = .ok call ∧ call.rows = rows' ∧
        call.config = config' := by
  have hreport : Event.called rows' config' ∈ (i.execute rows).1.events ↔
      Event.called rows' config' ∈ (i.descriptor.run i.config i.mapping rows).result.events :=
    called_reportFailure
  rw [hreport, Descriptor.run]
  split
  · rename_i mapped left hm
    rw [Descriptor.called_iff]
    constructor
    · rintro ⟨call, hcall⟩
      exact ⟨mapped, left, call, hm, hcall⟩
    · rintro ⟨mapped', left', call, hm', hcall⟩
      rw [hm] at hm'
      obtain ⟨rfl, rfl⟩ := Prod.mk.inj (Except.ok.inj hm')
      exact ⟨call, hcall⟩
  · rename_i failure hm
    simp [hm, Traced.fail]

end Instance

end RowPipeline
