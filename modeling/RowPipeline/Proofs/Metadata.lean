import RowPipeline.Metadata
import RowPipeline.Proofs.Fields
import RowPipeline.Proofs.Outcome

/-!
# The external format and the overlay of metadata

What is written in the external format is read back, level by level: a method, a parameter, a table of
parameters, and metadata as a whole (`Metadata.ofValue_toValue`). Metadata whose outputs are not declared has no
entry for them, so it is not read as an empty declaration.

Tables of parameters are laid over each other name by name and declared outputs replace each other, so overlays of
metadata can be put together in any grouping. Main statement: they form a monoid, and the external format keeps
its elements apart (`Metadata.overlays_form_monoid`).
-/

namespace RowPipeline

/-! ### The external format -/

theorem Value.entriesOrEmpty_dict (es : List (Key × Value)) : (Value.dict es).entriesOrEmpty = .ok es := by
  cases es <;> rfl

theorem Aggregation.ofValue_name (a : Aggregation) (parameter : String) :
    Aggregation.ofValue (.text a.name) parameter = .ok a := by
  cases a <;> rfl

theorem AggregationMethod.ofEntries_names (m : AggregationMethod) (parameter : String) :
    AggregationMethod.ofEntries [(.text "time", .text m.time.name), (.text "component", .text m.component.name)]
      parameter = .ok m := by
  have htime := Aggregation.ofValue_name m.time parameter
  have hcomponent := Aggregation.ofValue_name m.component parameter
  exact bind_eq_ok_iff.mpr ⟨m.time, htime, bind_eq_ok_iff.mpr ⟨m.component, hcomponent, rfl⟩⟩

theorem ParameterMetadata.ofValue_toValue (p : ParameterMetadata) (parameter : String) :
    ParameterMetadata.ofValue p.toValue parameter = .ok p := by
  have hmethod := AggregationMethod.ofEntries_names p.aggregation parameter
  calc ParameterMetadata.ofValue p.toValue parameter
      = (AggregationMethod.ofEntries _ parameter).bind fun m => .ok ⟨p.description, p.unit, m⟩ := rfl
    _ = .ok p := by rw [hmethod]; rfl

namespace Parameters

theorem ofEntries_map_toValue (es : List (Key × ParameterMetadata)) :
    ofEntries (es.map fun (name, p) => (name, p.toValue)) = .ok es := by
  induction es with
  | nil => rfl
  | cons e es ih =>
    obtain ⟨name, p⟩ := e
    have hp := ParameterMetadata.ofValue_toValue p (name.text?.getD "")
    exact bind_eq_ok_iff.mpr ⟨p, hp, bind_eq_ok_iff.mpr ⟨es, ih, rfl⟩⟩

/-- A table of parameters is read back in its order. -/
theorem ofValue_toValue (ps : Parameters) : ofValue ps.toValue = .ok ps := by
  have hentries := Value.entriesOrEmpty_dict (ps.entries.map fun (name, p) => (name, p.toValue))
  have hread := ofEntries_map_toValue ps.entries
  refine bind_eq_ok_iff.mpr ⟨_, hentries, bind_eq_ok_iff.mpr ⟨ps.entries, hread, ?_⟩⟩
  exact congrArg Except.ok (Fields.ofList_entries ps)

end Parameters

namespace Metadata

/-- **What is written is read back**, undeclared outputs and an empty declaration alike. -/
theorem ofValue_toValue (m : Metadata) : ofValue m.toValue = .ok m := by
  obtain ⟨inputs, outputs⟩ := m
  have hinputs := Parameters.ofValue_toValue inputs
  cases outputs with
  | none =>
    calc ofValue (toValue ⟨inputs, none⟩)
        = (Parameters.ofValue inputs.toValue).bind fun ps => .ok ⟨ps, none⟩ := rfl
      _ = .ok ⟨inputs, none⟩ := by rw [hinputs]; rfl
  | some outputs =>
    have houtputs := Parameters.ofValue_toValue outputs
    calc ofValue (toValue ⟨inputs, some outputs⟩)
        = (Parameters.ofValue inputs.toValue).bind fun ps =>
            (Parameters.ofValue outputs.toValue).bind fun qs => .ok ⟨ps, some qs⟩ := rfl
      _ = .ok ⟨inputs, some outputs⟩ := by rw [hinputs, houtputs]; rfl

/-! ### Overlays -/

theorem merge_assoc (a b c : Metadata) : (a.merge b).merge c = a.merge (b.merge c) := by
  have hinputs := Fields.merge_assoc a.inputs b.inputs c.inputs
  have houtputs : c.outputs.or (b.outputs.or a.outputs) = (c.outputs.or b.outputs).or a.outputs :=
    Option.or_assoc.symm
  exact congrArg₂ Metadata.mk hinputs houtputs

theorem empty_merge (a : Metadata) : merge {} a = a :=
  congrArg₂ Metadata.mk (Fields.empty_merge a.inputs) Option.or_none

theorem merge_empty (a : Metadata) : a.merge {} = a :=
  congrArg₂ Metadata.mk (Fields.merge_empty a.inputs) Option.none_or

/-- **Overlays of metadata form a monoid**, and metadata comes back from its external form as it was: with its
parameters in their order, and with outputs iff they were declared. In an overlay the declared inputs keep their
places, the new ones of the caller come behind them, and the caller decides what each of them is. -/
theorem overlays_form_monoid (a b c : Metadata) :
    ofValue a.toValue = .ok a ∧
      (a.merge b).merge c = a.merge (b.merge c) ∧ merge {} a = a ∧ a.merge {} = a ∧
      (a.merge b).inputs.keys = a.inputs.keys ++ b.inputs.keys.filter (· ∉ a.inputs.keys) ∧
      ∀ name, (a.merge b).inputs.get? name = (b.inputs.get? name).or (a.inputs.get? name) :=
  ⟨ofValue_toValue a, merge_assoc a b c, empty_merge a, merge_empty a,
    Fields.keys_merge a.inputs b.inputs, Fields.get?_merge a.inputs b.inputs⟩

/-- Outputs that are not declared, and none that are declared. -/
example : toValue {} = .dict [(.text "inputs", .dict [])] ∧ toValue { outputs := some ∅ } =
    .dict [(.text "inputs", .dict []), (.text "outputs", .dict [])] := ⟨rfl, rfl⟩

end Metadata

end RowPipeline
