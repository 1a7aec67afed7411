import RowPipeline.Proofs.Plugin.Runs

/-!
# Updates through a table

A plugin changes a field under its internal name and the rows outside see the change under the external
name (`execute_update`). There is one exception: where a row has a field of its own under the internal
name, before the external one, and the external name is no internal name, the value that the row had
comes out and the change is lost (`execute_update_of_own_field`).
-/

namespace RowPipeline

/-- Sets one field in every row, in place or in copies of the rows, and leaves the table alone. -/
def Implementation.setting (n : String) (v : Value) (inPlace : Bool) : Implementation := fun call =>
  let set := call.rows.map fun row => row.insert (.text n) v
  ⟨.ok set, if inPlace then set else call.rows, call.mapping⟩

namespace Instance

open Descriptor

variable {i : Instance} {rows : List Record} {n e : String} {v : Value} {inPlace : Bool}

/-- The rows that come out where a plain plugin sets one field; they are the same if it works in place. -/
theorem execute_setting (hp : i.descriptor.Plain) (hc : i.config = ∅)
    (hi : i.descriptor.implementation = .setting n v inPlace) (hn : i.mapping.get? n = some e) :
    (i.execute rows).1.outcome =
      .ok (rows.map fun row => (i.mapping.removeMapped (i.mapping.mapInput row)).merge
        (i.mapping.mapOutput ((i.mapping.mapInput row).insert (.text n) v))) := by
  have hrun : (i.descriptor.run i.config i.mapping rows).result =
      (i.descriptor.runMapped ∅ i.mapping rows).result := by
    rw [run, hc, mapRecord_empty]
  rw [execute_outcome, hrun, runMapped_of_prepared (prepare_of_plain hp ∅ i.mapping rows), hi]
  refine (finish_of_allow hp.allow).trans ?_
  cases inPlace with
  | false =>
    simp only [Implementation.setting, Bool.false_eq_true, if_false]
    rw [if_neg (by simp), List.map_map, List.zipWith_map, List.zipWith_self]
    rfl
  | true =>
    simp only [Implementation.setting, if_true]
    rw [if_neg (by simp), List.map_map, List.zipWith_map, List.zipWith_self]
    simp only [Function.comp_apply, Mapping.removeMapped_insert hn]

/-- **An update gets through.** A plain plugin with an empty config that sets the field `n` to a value in
every row gives that value to the external field `e` of each row that has it. The exception is a row
with a field `n` of its own before `e`, if `e` is no internal name: there `e` keeps its value. -/
theorem execute_update (i : Instance) (rows : List Record) (n e : String) (v : Value) (inPlace : Bool)
    (hp : i.descriptor.Plain) (hc : i.config = ∅)
    (hi : i.descriptor.implementation = .setting n v inPlace) (hm : i.mapping.Injective)
    (hn : i.mapping.get? n = some e) :
    ∃ outs, (i.execute rows).1.outcome = .ok outs ∧ outs.length = rows.length ∧
      ∀ (j : Nat) (row : Record), rows[j]? = some row → row.contains (.text e) →
        ∃ out, outs[j]? = some out ∧ out.get? (.text e) =
          if i.mapping.get? e = none ∧ [Scalar.text n, .text e].Sublist row.keys then
            row.get? (.text e)
          else some v := by
  refine ⟨_, execute_setting hp hc hi hn, List.length_map _, fun j row hrow he => ?_⟩
  refine ⟨_, by rw [List.getElem?_map, hrow]; rfl, ?_⟩
  rw [Fields.get?_merge, Mapping.get?_mapOutput_insert hm hn he]
  obtain ⟨w, hw⟩ := Option.isSome_iff_exists.mp he
  split
  · rw [hw]
    rfl
  · rfl

/-- An instance whose plugin sets the field `carbon`, which is `carbon-product` outside. -/
def settingCarbon (v : Value) : Instance where
  descriptor := { implementation := .setting "carbon" v false }
  config := ∅
  metadata := {}
  mode := .snapshot
  mapping := Fields.insert ∅ "carbon" "carbon-product"

/-- The row has the field under its external name only, so the value that the plugin sets comes out. -/
theorem execute_update_of_external :
    let i := settingCarbon (.int 99)
    let row : Record := ⟨[(.text "cpu", .int 1), (.text "carbon-product", .int 2)], by decide⟩
    i.descriptor.Plain ∧ i.config = ∅ ∧ i.descriptor.implementation = .setting "carbon" (.int 99) false ∧
      i.mapping.Injective ∧ i.mapping.get? "carbon" = some "carbon-product" ∧
      row.contains (.text "carbon-product") ∧
      ∃ out, (∃ outs, (i.execute [row]).1.outcome = .ok outs ∧ outs[0]? = some out) ∧
        out.get? (.text "carbon-product") = some (.int 99) := by
  intro i row
  have hp : i.descriptor.Plain := ⟨rfl, rfl, rfl⟩
  have hm : i.mapping.Injective := Mapping.injective_of_one "carbon" "carbon-product"
  obtain ⟨outs, hout, -, hrows⟩ := execute_update i [row] "carbon" "carbon-product" (.int 99) false hp rfl
    rfl hm rfl
  obtain ⟨out, hget, hv⟩ := hrows 0 row rfl rfl
  exact ⟨hp, rfl, rfl, hm, rfl, rfl, out, ⟨outs, hout, hget⟩, hv⟩

/-- **A lost update**: the row has a field `carbon` of its own before `carbon-product`, so the value that
the plugin set does not come out. -/
theorem execute_update_of_own_field :
    let i := settingCarbon (.int 99)
    let row : Record := ⟨[(.text "carbon", .int 1), (.text "carbon-product", .int 2)], by decide⟩
    i.descriptor.Plain ∧ i.config = ∅ ∧ i.descriptor.implementation = .setting "carbon" (.int 99) false ∧
      i.mapping.Injective ∧ i.mapping.get? "carbon" = some "carbon-product" ∧
      row.contains (.text "carbon-product") ∧
      (i.execute [row]).1.outcome = .ok [⟨[(.text "carbon-product", .int 2)], by decide⟩] := by
  intro i row
  have hp : i.descriptor.Plain := ⟨rfl, rfl, rfl⟩
  refine ⟨hp, rfl, rfl, Mapping.injective_of_one "carbon" "carbon-product", rfl, rfl, ?_⟩
  rw [execute_setting (e := "carbon-product") hp rfl rfl rfl]
  rfl

end Instance

end RowPipeline
