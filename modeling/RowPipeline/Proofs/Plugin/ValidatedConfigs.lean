import RowPipeline.Proofs.Plugin.Calls

/-!
# What becomes of a validated config

A plugin that evaluates validates its config with the closed texts worked out and evaluates the same config
against the rows; the implementation gets the evaluated config laid over the validated one. A field that is
not allowed is evaluated to what it was before (`Record.get?_evaluateConfig_of_not_mem`), so that value
lies over the one of the validator (`Descriptor.get?_configForCall_of_not_mem`). Hence a value that the
validator put in reaches the implementation iff the field is new or the value is the old one
(`Instance.execute_validated`); a changed one is lost (`Instance.execute_validated_of_changed`).
-/

namespace RowPipeline

open Expression

namespace Descriptor

variable {simple row overlay accepted : Record} {allow : List Key} {field : Key} {v : Value} {m : Mapping}

/-- A field that is not allowed has its value from before the validation, if it had one. -/
theorem get?_configForCall_of_not_mem (ho : (simple.evaluateConfig row allow).outcome = .ok overlay)
    (hf : field ∉ allow) (hm : field ≠ .text "mapping") :
    (configForCall accepted (some overlay) m).get? field =
      (simple.get? field).or (accepted.get? field) := by
  rw [get?_configForCall _ _ _ hm, Option.getD_some, Record.get?_evaluateConfig_of_not_mem ho hf]

end Descriptor

namespace Instance

open Descriptor

/-- **Validated fields of a call.** A plugin that evaluates is called on rows; a field that is not allowed
and not the table's has a value `v` from the validator. The implementation gets the value that the field
had before the validation, and `v` if it had none. -/
theorem execute_validated (i : Instance) (rows rows' : List Record) (config' : Record)
    (allow : List Key) (ha : i.descriptor.allow = some allow) (hr : rows ≠ [])
    (hc : Event.called rows' config' ∈ (i.execute rows).1.events) :
    ∃ mapped left simple accepted, i.mapping.mapRecord i.config = .ok (mapped, left) ∧
      mapFields evaluateSimple mapped = .ok simple ∧
      (i.descriptor.configValidator.acceptConfig simple).outcome = .ok accepted ∧
      ∀ field v, field ∉ allow → field ≠ .text "mapping" → accepted.get? field = some v →
        config'.get? field = (simple.get? field).or (some v) ∧
          (config'.get? field = some v ↔ simple.get? field = none ∨ simple.get? field = some v) := by
  obtain ⟨mapped, left, call, hm, hcall, -, rfl⟩ := called_iff.mp hc
  obtain ⟨simple, row, overlay, accepted, hsimple, -, hover, haccept, hconfig⟩ :=
    prepare_layers ha (List.getLast?_eq_some_getLast hr) hcall
  refine ⟨mapped, left, simple, accepted, hm, hsimple, haccept, fun field v hf ht hv => ?_⟩
  have hget : call.config.get? field = (simple.get? field).or (some v) := by
    rw [hconfig, get?_configForCall_of_not_mem hover hf ht, hv]
  refine ⟨hget, ?_⟩
  rw [hget]
  cases simple.get? field <;> simp

/-- A plugin that hands its rows back; its validator sets a field of every config. -/
def setting (field : Key) (v : Value) (config : Record) : Instance :=
  let i := handingBack [] config
  let onConfig : Record → Except Failure (Option Record) := fun c => .ok (some (c.insert field v))
  { i with descriptor := { i.descriptor with
    configValidator := .function ⟨onConfig, fun row _ _ => .ok (some row)⟩ } }

/-- A value for a field that the config does not have reaches the implementation. -/
theorem execute_validated_of_new :
    let i := setting (.text "coefficient") (.int 2) ∅
    i.descriptor.allow = some [] ∧ [rated] ≠ [] ∧ ∃ rows' config',
      Event.called rows' config' ∈ (i.execute [rated]).1.events ∧
        config'.get? (.text "coefficient") = some (.int 2) := by
  intro i
  have hc : Event.called [rated] (configForCall (Fields.insert ∅ (.text "coefficient") (.int 2))
      (some ∅) ∅) ∈ (i.execute [rated]).1.events :=
    called_iff.mpr ⟨∅, ∅, _, rfl, rfl, rfl, rfl⟩
  refine ⟨rfl, List.cons_ne_nil _ _, _, _, hc, ?_⟩
  obtain ⟨mapped, left, simple, accepted, hm, hs, haccept, hall⟩ :=
    execute_validated i [rated] _ _ [] rfl (List.cons_ne_nil _ _) hc
  obtain ⟨rfl, -⟩ := Prod.mk.inj (Except.ok.inj hm)
  obtain rfl := Except.ok.inj hs
  obtain rfl := Except.ok.inj haccept
  exact (hall (.text "coefficient") (.int 2) (by simp) (by decide) rfl).2.mpr (Or.inl rfl)

/-- **A changed value is lost**: the validator changes a 1 to a 2, and the implementation gets the 1. -/
theorem execute_validated_of_changed :
    let i := setting (.text "coefficient") (.int 2) ⟨[(.text "coefficient", .int 1)], by decide⟩
    i.descriptor.allow = some [] ∧ [rated] ≠ [] ∧ ∃ rows' config' mapped left simple accepted,
      Event.called rows' config' ∈ (i.execute [rated]).1.events ∧
      i.mapping.mapRecord i.config = .ok (mapped, left) ∧
      mapFields evaluateSimple mapped = .ok simple ∧
      (i.descriptor.configValidator.acceptConfig simple).outcome = .ok accepted ∧
      accepted.get? (.text "coefficient") = some (.int 2) ∧
      config'.get? (.text "coefficient") ≠ some (.int 2) := by
  intro i
  have hc : Event.called [rated] (configForCall ⟨[(.text "coefficient", .int 2)], by decide⟩
      (some ⟨[(.text "coefficient", .int 1)], by decide⟩) ∅) ∈ (i.execute [rated]).1.events :=
    called_iff.mpr ⟨_, ∅, _, rfl, rfl, rfl, rfl⟩
  refine ⟨rfl, List.cons_ne_nil _ _, _, _, _, _, _, _, hc, rfl, rfl, rfl, rfl, fun h => ?_⟩
  cases h

end Instance

end RowPipeline
