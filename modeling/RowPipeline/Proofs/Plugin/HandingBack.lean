import RowPipeline.Proofs.Mapping.Configs
import RowPipeline.Proofs.Mapping.Copies
import RowPipeline.Proofs.Plugin.Runs
import RowPipeline.Stock.Implementation

/-!
# Plugins that hand their rows back

A plain plugin whose implementation hands its rows back changes nothing: each row gets its copies, loses
them again and is overlaid with itself, whatever the table is. The config may use up entries of the table
before, so the copies are made by what is left of it; a row from outside stays one
(`execute_eq_rows_of_handsBack`).
-/

namespace RowPipeline

/-- An implementation that answers the rows that it gets, and leaves them and the table alone. -/
def Implementation.HandsBack (f : Implementation) : Prop :=
  ∀ call, f call = ⟨.ok call.rows, call.rows, call.mapping⟩

theorem Stock.Implementation.handsBack_identity :
    (Stock.Implementation.run .identity).HandsBack := fun _ => rfl

namespace Descriptor

variable {d : Descriptor} {config : Record} {m : Mapping} {rows : List Record}

/-- What is finished where the rows are handed back: each row over itself. -/
theorem finish_handedBack (ha : d.allow = none) (h : ∀ row ∈ rows, m.Outside row) :
    (d.finish m (rows.map m.mapInput) (rows.map m.mapInput)).outcome = .ok rows := by
  have hrows : rows.map (fun row => (m.removeMapped (m.mapInput row)).merge
      (m.mapOutput (m.mapInput row))) = rows := by
    conv_rhs => rw [← List.map_id rows]
    exact List.map_congr_left fun row hrow => Mapping.merge_mapOutput_mapInput (h row hrow)
  rw [finish_of_allow ha, if_neg (by simp), List.zipWith_map, List.zipWith_self, hrows]

/-- **A run that changes nothing**: it gives its rows if the config can be mapped, and fails as mapping the
config does otherwise. -/
theorem run_handingBack (hp : d.Plain) (hf : d.implementation.HandsBack)
    (h : ∀ row ∈ rows, m.Outside row) :
    (d.run config m rows).result.outcome = (m.mapRecord config).map fun _ => rows := by
  rw [run_outcome]
  cases hmap : m.mapRecord config with
  | error failure => rfl
  | ok mapped =>
    obtain ⟨mapped, left⟩ := mapped
    obtain ⟨used, rfl⟩ := Mapping.exists_left hmap
    have hleft : ∀ row ∈ rows, Mapping.Outside (m.eraseAll used) row :=
      fun row hrow => (h row hrow).eraseAll used
    change (d.prepare mapped (m.eraseAll used) rows).outcome.bind _ = .ok rows
    rw [prepare_of_plain hp]
    change ((d.implementation _).rows.bind fun outputs => (d.finish _ _ outputs).outcome) = .ok rows
    rw [hf]
    exact finish_handedBack hp.allow hleft

end Descriptor

namespace Instance

/-- **A plugin that hands its rows back is the identity** under every table, with every config, on rows from
outside: if an execution returns, it returns the rows, entry by entry. It returns iff the config can be
mapped. -/
theorem execute_eq_rows_of_handsBack (i : Instance) (rows : List Record) (hp : i.descriptor.Plain)
    (hf : i.descriptor.implementation.HandsBack) (ho : ∀ row ∈ rows, i.mapping.Outside row) :
    (∀ outs, (i.execute rows).1.outcome = .ok outs → outs = rows) ∧
      ((∃ outs, (i.execute rows).1.outcome = .ok outs) ↔
        ∃ mapped, i.mapping.mapRecord i.config = .ok mapped) := by
  have hout : (i.execute rows).1.outcome = (i.mapping.mapRecord i.config).map fun _ => rows := by
    rw [execute_outcome]
    exact Descriptor.run_handingBack hp hf ho
  rw [hout]
  constructor
  · intro outs h
    obtain ⟨_, -, rfl⟩ := map_eq_ok_iff.mp h
    rfl
  · constructor
    · rintro ⟨outs, h⟩
      obtain ⟨mapped, hmap, -⟩ := map_eq_ok_iff.mp h
      exact ⟨mapped, hmap⟩
    · rintro ⟨mapped, hmap⟩
      exact ⟨rows, map_eq_ok_iff.mpr ⟨mapped, hmap, rfl⟩⟩

/-- A table with a chain from `carbon` through `energy` to `power` and two names for `power`; the config
uses up the entry of `load`. -/
theorem execute_eq_rows_of_chained :
    let i : Instance := {
      descriptor := { implementation := Stock.Implementation.run .identity }
      config := ⟨[(.text "parameter", .text "load")], by decide⟩
      metadata := {}
      mode := .snapshot
      mapping := ⟨[("carbon", "energy"), ("energy", "power"), ("watts", "power"), ("load", "cpu")],
        by decide⟩ }
    let row : Record := ⟨[(.text "power", .int 5), (.text "cpu", .int 1)], by decide⟩
    i.descriptor.Plain ∧ i.descriptor.implementation.HandsBack ∧
      (∀ row' ∈ [row], i.mapping.Outside row') ∧ (i.execute [row]).1.outcome = .ok [row] := by
  intro i row
  have hp : i.descriptor.Plain := ⟨rfl, rfl, rfl⟩
  have hf : i.descriptor.implementation.HandsBack := Stock.Implementation.handsBack_identity
  have ho : ∀ row' ∈ [row], i.mapping.Outside row' := by
    intro row' hrow
    obtain rfl := List.mem_singleton.mp hrow
    intro k hk
    rcases List.mem_pair.mp hk with rfl | rfl <;> rfl
  obtain ⟨hrows, hreturns⟩ := execute_eq_rows_of_handsBack i [row] hp hf ho
  obtain ⟨outs, hout⟩ := hreturns.mpr ⟨_, rfl⟩
  refine ⟨hp, hf, ho, ?_⟩
  rw [hout, hrows outs hout]

end Instance

end RowPipeline
