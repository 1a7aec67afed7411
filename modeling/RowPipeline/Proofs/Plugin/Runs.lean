import RowPipeline.Plugin
import RowPipeline.Proofs.Mapping.Rows
import RowPipeline.Proofs.Outcome

/-!
# Runs

A run maps the config, prepares the call, calls the implementation and finishes its answer with the rows and
the table of the call as the implementation left them (`run_outcome`). The call comes from the evaluated config and rows as they are
accepted (`prepare_ok`).

A plain plugin has no validators and evaluates nothing (`Descriptor.Plain`). Its implementation gets the
rows with their internal names (`prepare_of_plain`), and each row that it answers is renamed and laid over
the row it was made from (`finish_of_allow`). An empty config leaves the table whole (`mapRecord_empty`),
and so does an implementation that leaves alone what it gets (`runMapped_mapping`).
-/

namespace RowPipeline

namespace Descriptor

variable {d : Descriptor} {config : Record} {m : Mapping} {rows outputs : List Record}

/-- A plugin without validators that evaluates nothing. -/
structure Plain (d : Descriptor) : Prop where
  configValidator : d.configValidator = .passThrough
  rowValidator : d.rowValidator = .passThrough
  allow : d.allow = none

theorem evaluates_of_allow (h : d.allow = none) : d.evaluates = false := by
  rw [evaluates, h]
  rfl

/-! ### Before the call -/

/-- **What an implementation is called with** comes from the evaluated config and rows as they are
accepted, with the table as it is. -/
theorem prepare_ok {call : Call} (h : (d.prepare config m rows).outcome = .ok call) :
    ∃ simple evaluated overlay accepted rowConfig prepared,
      (d.evaluateAll config rows).outcome = .ok (simple, evaluated, overlay) ∧
      (d.configValidator.acceptConfig simple).outcome = .ok accepted ∧
      d.configForRows accepted = .ok rowConfig ∧
      (acceptRows d.rowValidator rowConfig m 0 evaluated).outcome = .ok prepared ∧
      call = ⟨prepared, configForCall accepted overlay m, m⟩ := by
  rw [prepare] at h
  obtain ⟨⟨simple, evaluated, overlay⟩, heval, h⟩ := Traced.bind_ok_iff.mp h
  obtain ⟨accepted, haccept, h⟩ := Traced.bind_ok_iff.mp h
  obtain ⟨_, -, h⟩ := Traced.bind_ok_iff.mp h
  obtain ⟨rowConfig, hconfig, h⟩ := Traced.bind_ok_iff.mp h
  obtain ⟨prepared, hrows, h⟩ := Traced.bind_ok_iff.mp h
  exact ⟨simple, evaluated, overlay, accepted, rowConfig, prepared, heval, haccept, hconfig, hrows,
    (Except.ok.inj h).symm⟩

theorem acceptRows_passThrough (config : Record) (m : Mapping) (index : Nat) (rows : List Record) :
    (acceptRows .passThrough config m index rows).outcome = .ok (rows.map m.mapInput) := by
  induction rows generalizing index with
  | nil => rfl
  | cons row rows ih =>
    have haccept : (Validator.passThrough.acceptRow row config index).outcome = .ok row := rfl
    rw [acceptRows]
    refine Traced.bind_ok_iff.mpr ⟨row, haccept, Traced.bind_ok_iff.mpr ⟨_, ih _, ?_⟩⟩
    rw [Mapping.merge_mapInput]
    rfl

/-- What a plugin without validators is called with, from its evaluated config and rows. -/
theorem prepare_of_evaluateAll {simple rowConfig : Record} {outs : List Record}
    {overlay : Option Record} (hc : d.configValidator = .passThrough) (hr : d.rowValidator = .passThrough)
    (he : (d.evaluateAll config rows).outcome = .ok (simple, outs, overlay))
    (hconfig : d.configForRows simple = .ok rowConfig) (m : Mapping) :
    (d.prepare config m rows).outcome =
      .ok ⟨outs.map m.mapInput, configForCall simple overlay m, m⟩ := by
  have haccept : (d.configValidator.acceptConfig simple).outcome = .ok simple := by
    rw [hc]
    rfl
  rw [prepare]
  refine Traced.bind_ok_iff.mpr ⟨(simple, outs, overlay), he, ?_⟩
  refine Traced.bind_ok_iff.mpr ⟨simple, haccept, Traced.bind_ok_iff.mpr ⟨(), rfl, ?_⟩⟩
  refine Traced.bind_ok_iff.mpr ⟨rowConfig, hconfig, ?_⟩
  rw [hr]
  exact Traced.bind_ok_iff.mpr ⟨_, acceptRows_passThrough rowConfig m 0 outs, rfl⟩

/-- **What a plain plugin is called with.** -/
theorem prepare_of_plain (h : d.Plain) (config : Record) (m : Mapping) (rows : List Record) :
    (d.prepare config m rows).outcome =
      .ok ⟨rows.map m.mapInput, configForCall config none m, m⟩ := by
  have heval : (d.evaluateAll config rows).outcome = .ok (config, rows, none) := by
    rw [evaluateAll, h.allow]
    rfl
  have hconfig : d.configForRows config = .ok config := by
    rw [configForRows, evaluates_of_allow h.allow]
    rfl
  exact prepare_of_evaluateAll h.configValidator h.rowValidator heval hconfig m

/-! ### After the call -/

/-- What a plugin that evaluates nothing makes of the answer. -/
theorem finish_of_allow (h : d.allow = none) : (d.finish m rows outputs).outcome =
    if outputs.length ≠ rows.length then .error (miscounted outputs.length rows.length)
    else .ok (List.zipWith (fun row output => (m.removeMapped row).merge (m.mapOutput output))
      rows outputs) := by
  rw [finish]
  split
  · rfl
  · rw [evaluates_of_allow h]
    rfl

/-! ### Whole runs -/

/-- A run with a mapped config that gets to the call: the rest is up to the answer. -/
theorem runMapped_of_prepared {call : Call} (h : (d.prepare config m rows).outcome = .ok call) :
    (d.runMapped config m rows).result.outcome = (d.implementation call).rows.bind fun outputs =>
      (d.finish (d.implementation call).mapping (d.implementation call).given outputs).outcome := by
  simp only [runMapped, h, Traced.outcome_bind, Traced.outcome_emit, Traced.outcome_lift]
  rfl

/-- **The outcome of a run**: the config is mapped, the call is prepared, the implementation answers, and
its rows are finished with the rows and the table of the call as it left them. -/
theorem run_outcome (d : Descriptor) (config : Record) (m : Mapping) (rows : List Record) :
    (d.run config m rows).result.outcome = (m.mapRecord config).bind fun mapped =>
      (d.prepare mapped.1 mapped.2 rows).outcome.bind fun call =>
        (d.implementation call).rows.bind fun outputs =>
          (d.finish (d.implementation call).mapping (d.implementation call).given outputs).outcome := by
  rw [run]
  cases m.mapRecord config with
  | error failure => rfl
  | ok mapped =>
    obtain ⟨mapped, left⟩ := mapped
    change (d.runMapped mapped left rows).result.outcome = (d.prepare mapped left rows).outcome.bind _
    cases hp : (d.prepare mapped left rows).outcome with
    | ok call => exact runMapped_of_prepared hp
    | error failure => simp [runMapped, hp, Except.bind]

/-- An implementation that leaves the table of every call as it is. -/
def LeavesTable (d : Descriptor) : Prop := ∀ call, (d.implementation call).mapping = call.mapping

/-- The table after a run with a mapped config. -/
theorem runMapped_mapping (h : d.LeavesTable) : (d.runMapped config m rows).mapping = m := by
  cases hp : (d.prepare config m rows).outcome with
  | error failure => simp only [runMapped, hp]
  | ok call =>
    have hcall : call.mapping = m := by
      obtain ⟨_, _, _, _, _, _, -, -, -, -, rfl⟩ := prepare_ok hp
      rfl
    simp only [runMapped, hp]
    exact (h call).trans hcall

theorem mapRecord_empty (m : Mapping) : m.mapRecord ∅ = .ok (∅, m) := by
  unfold Mapping.mapRecord
  split
  · rfl
  · have hentries : m.mapEntries (∅ : Record).entries = .ok ([], []) := by
      rw [Fields.entries_empty, Mapping.mapEntries]
    refine bind_eq_ok_iff.mpr ⟨([], []), hentries, ?_⟩
    exact congrArg (fun left => Except.ok (∅, left)) (Fields.eraseAll_nil m)

end Descriptor

namespace Instance

theorem outcome_reportFailure {α : Type} (result : Traced α) :
    (reportFailure result).outcome = result.outcome := by
  unfold reportFailure
  split <;> rfl

/-- The outcome of an execution is that of its run. -/
theorem execute_outcome (i : Instance) (rows : List Record) :
    (i.execute rows).1.outcome = (i.descriptor.run i.config i.mapping rows).result.outcome :=
  outcome_reportFailure _

/-- A plain plugin with a table in which `carbon` is `carbon-product` outside. -/
def ofCarbon (implementation : Implementation) (config : Record) (mode : MappingMode) : Instance where
  descriptor := { implementation }
  config
  metadata := {}
  mode
  mapping := Fields.insert ∅ "carbon" "carbon-product"

theorem plain_ofCarbon (implementation : Implementation) (config : Record) (mode : MappingMode) :
    (ofCarbon implementation config mode).descriptor.Plain :=
  ⟨rfl, rfl, rfl⟩

end Instance

end RowPipeline
