import RowPipeline.Proofs.Mapping.Rows
import RowPipeline.Proofs.Plugin.Events
import RowPipeline.Proofs.Plugin.Runs
import RowPipeline.Stock.Implementation

/-!
# The rows of a result

Rows stay in place on their way through a run (`RowWise`): a row enters as it is evaluated and accepted
(`Descriptor.Enters`), the answer to it leaves as its output parameter is evaluated (`Descriptor.Leaves`),
and the two are laid over each other under the table (`Mapping.Overlays`).

The rows and the table of the last step are those that the implementation leaves. An implementation may take
entries out of its table, and their internal names show in the result then (`execute_rows_of_edited_table`);
it may take fields out of its rows and rows off its list (`execute_of_edited_rows`). If it leaves as many rows
as it got, a run gives a row for each row, and no field of what it leaves is lost (`execute_rows`).
-/

namespace RowPipeline

/-! ### Row by row -/

section RowWise

variable {α β γ : Type} {R : Nat → α → β → Prop} {S : Nat → β → γ → Prop} {xs : List α} {ys : List β}
  {zs : List γ} {x : α} {y : β} {j : Nat}

/-- Two lists of one length that are related place by place. -/
def RowWise (R : Nat → α → β → Prop) (xs : List α) (ys : List β) : Prop :=
  ys.length = xs.length ∧ ∀ j x y, xs[j]? = some x → ys[j]? = some y → R j x y

theorem RowWise.nil : RowWise R [] [] := ⟨rfl, by simp⟩

theorem RowWise.cons (h : R 0 x y) (hrest : RowWise (fun j => R (j + 1)) xs ys) :
    RowWise R (x :: xs) (y :: ys) := by
  refine ⟨congrArg Nat.succ hrest.1, fun j x' y' hx hy => ?_⟩
  rcases j with _ | j
  · obtain rfl := Option.some.inj hx
    obtain rfl := Option.some.inj hy
    exact h
  · exact hrest.2 j x' y' hx hy

/-- Each row has one that it is related to. -/
theorem RowWise.exists_right (h : RowWise R xs ys) (hx : xs[j]? = some x) :
    ∃ y, ys[j]? = some y ∧ R j x y := by
  have hj : j < ys.length := by
    rw [h.1]
    exact (List.getElem?_eq_some_iff.mp hx).1
  have hy : ys[j]? = some ys[j] := List.getElem?_eq_getElem hj
  exact ⟨ys[j], hy, h.2 j x _ hx hy⟩

theorem RowWise.comp (h : RowWise R xs ys) (h' : RowWise S ys zs) :
    RowWise (fun j x z => ∃ y, ys[j]? = some y ∧ R j x y ∧ S j y z) xs zs := by
  refine ⟨h'.1.trans h.1, fun j x z hx hz => ?_⟩
  obtain ⟨y, hy, hr⟩ := h.exists_right hx
  exact ⟨y, hy, hr, h'.2 j y z hy hz⟩

theorem RowWise.zipWith {f : α → β → γ} (h : ys.length = xs.length) :
    RowWise (fun j x z => ∃ y, ys[j]? = some y ∧ z = f x y) xs (List.zipWith f xs ys) := by
  refine ⟨by rw [List.length_zipWith, h, Nat.min_self], fun j x z hx hz => ?_⟩
  obtain ⟨x', y, hx', hy, rfl⟩ := List.getElem?_zipWith_eq_some.mp hz
  obtain rfl := Option.some.inj (hx.symm.trans hx')
  exact ⟨y, hy, rfl⟩

end RowWise

/-! ### One row over another -/

namespace Mapping

variable {m : Mapping} {x y : Record} {k : Key} {v : Value}

/-- A row that is made of two under a table. All fields of the first row are there except those with
internal names; those that the second row gives under external names have its values, the others those of
the first row; and an internal name is there only if it is an external name too. -/
structure Overlays (m : Mapping) (x y out : Record) : Prop where
  kept : ∀ k v, x.get? k = some v → m.external? k = none → ∃ w, out.get? k = some w
  provided : ∀ k v, (m.mapOutput y).get? k = some v → out.get? k = some v
  rest : ∀ k v, out.get? k = some v → (m.mapOutput y).get? k = none → x.get? k = some v
  hidden : ∀ n e v, m.get? n = some e → out.get? (.text n) = some v → ∃ n', m.get? n' = some n

/-- The names that come out are external ones, and those that the table does not have. -/
theorem external?_of_get?_mapOutput (h : (m.mapOutput y).get? k = some v) :
    m.external? k = none ∨ ∃ n e, m.get? n = some e ∧ k = .text e := by
  rw [mapOutput, Fields.get?_ofList] at h
  obtain ⟨⟨k', v'⟩, -, hentry⟩ := List.mem_map.mp (List.mem_reverse.mp (Entries.mem_of_get? h))
  obtain ⟨rfl, -⟩ := Prod.mk.inj hentry
  cases hk : m.external? k' with
  | none =>
    rw [rename_of_none hk]
    exact Or.inl hk
  | some e =>
    cases k' with
    | text n => exact Or.inr ⟨n, e, hk, rename_of_some hk⟩
    | _ => cases hk

/-- What is under a name in the row that a run makes. -/
theorem get?_merge_mapOutput (m : Mapping) (x y : Record) (k : Key) :
    ((m.removeMapped x).merge (m.mapOutput y)).get? k =
      ((m.mapOutput y).get? k).or (if m.external? k = none then x.get? k else none) := by
  rw [Fields.get?_merge, removeMapped, Fields.get?_filter]
  cases m.external? k <;> cases x.get? k <;> rfl

/-- **No field is lost.** -/
theorem overlays_merge (m : Mapping) (x y : Record) :
    m.Overlays x y ((m.removeMapped x).merge (m.mapOutput y)) where
  kept k v hx hk := by
    rw [get?_merge_mapOutput, if_pos hk, hx]
    cases (m.mapOutput y).get? k with
    | none => exact ⟨v, rfl⟩
    | some w => exact ⟨w, rfl⟩
  provided k v hy := by
    rw [get?_merge_mapOutput, hy]
    rfl
  rest k v h hy := by
    rw [get?_merge_mapOutput, hy, Option.none_or] at h
    split at h
    · exact h
    · cases h
  hidden n e v hn h := by
    have hname : m.external? (.text n) ≠ none := by
      rw [external?, hn]
      simp
    rw [get?_merge_mapOutput, if_neg hname, Option.or_none] at h
    rcases external?_of_get?_mapOutput h with hnone | ⟨n', e', hn', he⟩
    · exact absurd hnone hname
    · obtain rfl := Scalar.text.inj he
      exact ⟨n', hn'⟩

end Mapping

/-! ### The way through a run -/

namespace Descriptor

variable {d : Descriptor} {config mapped : Record} {m : Mapping} {allow : List Key}
  {rows answer outs : List Record} {last overlay : Option Record}

/-- The config that the validator of rows gets in a run with a mapped config. -/
def rowConfig (d : Descriptor) (mapped : Record) (rows : List Record) : Except Failure Record := do
  let (simple, _, _) ← (d.evaluateAll mapped rows).outcome
  let accepted ← (d.configValidator.acceptConfig simple).outcome
  d.configForRows accepted

/-- How a row gets to the implementation: it is evaluated if the plugin evaluates and accepted under its
number, and what was accepted is laid over it with its internal names. -/
def Enters (d : Descriptor) (config : Record) (m : Mapping) (j : Nat) (row x : Record) : Prop :=
  ∃ evaluated accepted, (if d.evaluates then row.evaluate.outcome else .ok row) = .ok evaluated ∧
    (d.rowValidator.acceptRow evaluated config j).outcome = .ok accepted ∧
      x = evaluated.merge (m.mapInput accepted)

/-- How an answered row leaves the implementation: as it is, or with the output parameter evaluated if the
plugin evaluates and there is one. -/
def Leaves (d : Descriptor) (rows answer : List Record) (output y : Record) : Prop :=
  match if d.evaluates then outputParameter? rows answer else none with
  | none => y = output
  | some parameter => (Record.evaluateOutput parameter output).outcome = .ok y

theorem evaluateRows_rows : ∀ {rows outs : List Record} {last overlay : Option Record},
    (evaluateRows config allow last rows).outcome = .ok (outs, overlay) →
      RowWise (fun _ row out => row.evaluate.outcome = .ok out) rows outs
  | [], outs, last, overlay, h => by
    obtain ⟨rfl, -⟩ := Prod.mk.inj (Except.ok.inj h)
    exact .nil
  | row :: rows, outs, last, overlay, h => by
    rw [evaluateRows] at h
    obtain ⟨out, hrow, h⟩ := Traced.bind_ok_iff.mp h
    obtain ⟨_, -, h⟩ := Traced.bind_ok_iff.mp h
    obtain ⟨⟨outs', _⟩, hrest, h⟩ := Traced.bind_ok_iff.mp h
    obtain ⟨rfl, -⟩ := Prod.mk.inj (Except.ok.inj h)
    exact .cons hrow (evaluateRows_rows hrest)

theorem evaluateAll_rows {simple : Record}
    (h : (d.evaluateAll config rows).outcome = .ok (simple, outs, overlay)) :
    RowWise (fun _ row out => (if d.evaluates then row.evaluate.outcome else .ok row) = .ok out)
      rows outs := by
  rw [evaluateAll] at h
  split at h
  · rename_i ha
    obtain ⟨-, hrest⟩ := Prod.mk.inj (Except.ok.inj h)
    obtain ⟨rfl, -⟩ := Prod.mk.inj hrest
    refine ⟨rfl, fun j row out hrow hout => ?_⟩
    obtain rfl := Option.some.inj (hrow.symm.trans hout)
    simp only [evaluates_of_allow ha, Bool.false_eq_true, if_false]
  · rename_i allow ha
    have hevaluates : d.evaluates := by
      rw [evaluates, ha]
      rfl
    obtain ⟨_, -, h⟩ := Traced.bind_ok_iff.mp h
    obtain ⟨⟨outs', _⟩, hrows, h⟩ := Traced.bind_ok_iff.mp h
    obtain ⟨-, hrest⟩ := Prod.mk.inj (Except.ok.inj h)
    obtain ⟨rfl, -⟩ := Prod.mk.inj hrest
    simpa only [if_pos hevaluates] using evaluateRows_rows hrows

theorem acceptRows_rows {v : Validator} : ∀ {rows outs : List Record} {index : Nat},
    (acceptRows v config m index rows).outcome = .ok outs →
      RowWise (fun j row out => ∃ accepted, (v.acceptRow row config (index + j)).outcome = .ok accepted ∧
        out = row.merge (m.mapInput accepted)) rows outs
  | [], outs, index, h => by
    obtain rfl := Except.ok.inj h
    exact .nil
  | row :: rows, outs, index, h => by
    rw [acceptRows] at h
    obtain ⟨accepted, hrow, h⟩ := Traced.bind_ok_iff.mp h
    obtain ⟨outs', hrest, h⟩ := Traced.bind_ok_iff.mp h
    obtain rfl := Except.ok.inj h
    have hrest := acceptRows_rows hrest
    simp only [Nat.add_assoc, Nat.add_comm 1] at hrest
    exact .cons ⟨accepted, hrow, rfl⟩ hrest

/-- **How the rows of a call come about.** -/
theorem prepare_rows {call : Call} (h : (d.prepare mapped m rows).outcome = .ok call) :
    call.mapping = m ∧ ∃ config, d.rowConfig mapped rows = .ok config ∧
      RowWise (d.Enters config m) rows call.rows := by
  obtain ⟨simple, evaluated, overlay, accepted, config, prepared, heval, haccept, hconfig, hrows, rfl⟩ :=
    prepare_ok h
  have hrowConfig : d.rowConfig mapped rows = .ok config :=
    bind_eq_ok_iff.mpr ⟨_, heval, bind_eq_ok_iff.mpr ⟨accepted, haccept, hconfig⟩⟩
  have hway := (evaluateAll_rows heval).comp (acceptRows_rows hrows)
  refine ⟨rfl, config, hrowConfig, hway.1, fun j row x hrow hx => ?_⟩
  obtain ⟨out, -, hevaluated, accepted', haccepted, hmerge⟩ := hway.2 j row x hrow hx
  rw [Nat.zero_add] at haccepted
  exact ⟨out, accepted', hevaluated, haccepted, hmerge⟩

theorem evaluateOutputs_rows {parameter : Key} : ∀ {outputs outs : List Record},
    (evaluateOutputs parameter outputs).outcome = .ok outs →
      RowWise (fun _ output out => (Record.evaluateOutput parameter output).outcome = .ok out) outputs outs
  | [], outs, h => by
    obtain rfl := Except.ok.inj h
    exact .nil
  | output :: outputs, outs, h => by
    rw [evaluateOutputs] at h
    obtain ⟨out, hrow, h⟩ := Traced.bind_ok_iff.mp h
    obtain ⟨outs', hrest, h⟩ := Traced.bind_ok_iff.mp h
    obtain rfl := Except.ok.inj h
    exact .cons hrow (evaluateOutputs_rows hrest)

theorem finish_ok (h : (d.finish m rows answer).outcome = .ok outs) :
    answer.length = rows.length ∧ ∃ ys, RowWise (fun _ output y => d.Leaves rows answer output y) answer ys ∧
      outs = List.zipWith (fun x y => (m.removeMapped x).merge (m.mapOutput y)) rows ys := by
  rw [finish] at h
  split at h
  · cases h
  rename_i hlength
  refine ⟨not_not.mp hlength, ?_⟩
  dsimp only at h
  split at h
  · rename_i hparameter
    have hleaves : ∀ output y, d.Leaves rows answer output y ↔ y = output := fun output y => by
      rw [Leaves, hparameter]
    obtain rfl := Except.ok.inj h
    refine ⟨answer, ⟨rfl, fun j output y ho hy => ?_⟩, rfl⟩
    exact (hleaves output y).mpr (Option.some.inj (hy.symm.trans ho))
  · rename_i parameter hparameter
    have hleaves : ∀ output y, d.Leaves rows answer output y ↔
        (Record.evaluateOutput parameter output).outcome = .ok y := fun output y => by
      rw [Leaves, hparameter]
    obtain ⟨_, -, h⟩ := Traced.bind_ok_iff.mp h
    obtain ⟨ys, hys, h⟩ := Traced.bind_ok_iff.mp h
    obtain rfl := Except.ok.inj h
    refine ⟨ys, ?_, rfl⟩
    simpa only [hleaves] using evaluateOutputs_rows hys

/-- **How the rows of a result come about**, from those of the call, as they are left, and of the answer. -/
theorem finish_rows (h : (d.finish m rows answer).outcome = .ok outs) :
    RowWise (fun j x out => ∃ output y, answer[j]? = some output ∧ d.Leaves rows answer output y ∧
      m.Overlays x y out) rows outs := by
  obtain ⟨hlength, ys, hleave, rfl⟩ := finish_ok h
  have hzip := RowWise.zipWith (f := fun x y => (m.removeMapped x).merge (m.mapOutput y))
    (hleave.1.trans hlength)
  refine ⟨hzip.1, fun j x out hx hout => ?_⟩
  obtain ⟨y, hy, rfl⟩ := hzip.2 j x out hx hout
  have hj : j < answer.length := hleave.1 ▸ (List.getElem?_eq_some_iff.mp hy).1
  have ho : answer[j]? = some answer[j] := List.getElem?_eq_getElem hj
  exact ⟨answer[j], y, ho, hleave.2 j _ y ho hy, m.overlays_merge x y⟩

end Descriptor

namespace Instance

open Descriptor

variable {i : Instance} {rows outs : List Record} {call : Call}

/-- What the implementation is called with in an execution; the table is the one that is left after the
config is mapped. -/
def Calls (i : Instance) (rows : List Record) (call : Call) : Prop :=
  ∃ mapped, i.mapping.mapRecord i.config = .ok (mapped, call.mapping) ∧
    (i.descriptor.prepare mapped call.mapping rows).outcome = .ok call

/-- An implementation gets the rows and the config of the call, and nothing if there is none. -/
theorem called_iff_calls {rows' : List Record} {config : Record} :
    Event.called rows' config ∈ (i.execute rows).1.events ↔
      ∃ call, i.Calls rows call ∧ call.rows = rows' ∧ call.config = config := by
  rw [called_iff]
  constructor
  · rintro ⟨mapped, left, call, hmap, hprepare, hrows, hconfig⟩
    obtain ⟨rfl, -⟩ := prepare_rows hprepare
    exact ⟨call, ⟨mapped, hmap, hprepare⟩, hrows, hconfig⟩
  · rintro ⟨call, ⟨mapped, hmap, hprepare⟩, hrows, hconfig⟩
    exact ⟨mapped, call.mapping, call, hmap, hprepare, hrows, hconfig⟩

/-- The outcome of an execution that gets to the call. -/
theorem execute_of_calls (h : i.Calls rows call) : (i.execute rows).1.outcome =
    (i.descriptor.implementation call).rows.bind fun answer =>
      (i.descriptor.finish (i.descriptor.implementation call).mapping
        (i.descriptor.implementation call).given answer).outcome := by
  obtain ⟨mapped, hmap, hprepare⟩ := h
  rw [execute_outcome, run_outcome, hmap]
  change (i.descriptor.prepare mapped call.mapping rows).outcome.bind _ = _
  rw [hprepare]
  rfl

/-- An execution that succeeds gets to the call. -/
theorem exists_calls (h : (i.execute rows).1.outcome = .ok outs) : ∃ call, i.Calls rows call := by
  rw [execute_outcome, run_outcome] at h
  obtain ⟨⟨mapped, left⟩, hmap, h⟩ := bind_eq_ok_iff.mp h
  obtain ⟨call, hprepare, -⟩ := bind_eq_ok_iff.mp h
  obtain ⟨rfl, -⟩ := prepare_rows hprepare
  exact ⟨call, mapped, hmap, hprepare⟩

/-- The rows of a call are as many as those of the execution. -/
theorem Calls.length_rows (h : i.Calls rows call) : call.rows.length = rows.length := by
  obtain ⟨mapped, -, hprepare⟩ := h
  obtain ⟨-, config, -, henter⟩ := prepare_rows hprepare
  exact henter.1

/-- **No row and no field is lost** where the implementation leaves as many rows as it got. An execution that
succeeds gives a row for each row. The row comes from the row `x` that the implementation leaves of the one that
entered the call in its place, and from the row `y` that left the call there, laid over each other under the table
as the implementation leaves it. An implementation that answers with another number of rows makes the execution
fail. -/
theorem execute_rows (i : Instance) (rows : List Record)
    (hg : ∀ call, i.Calls rows call →
      (i.descriptor.implementation call).given.length = call.rows.length) :
    (∀ outs, (i.execute rows).1.outcome = .ok outs →
      ∃ mapped call answer config, i.mapping.mapRecord i.config = .ok (mapped, call.mapping) ∧
        (i.descriptor.prepare mapped call.mapping rows).outcome = .ok call ∧
        (i.descriptor.implementation call).rows = .ok answer ∧
        i.descriptor.rowConfig mapped rows = .ok config ∧
        RowWise (fun j row out => ∃ entered x output y, call.rows[j]? = some entered ∧
          i.descriptor.Enters config call.mapping j row entered ∧
          (i.descriptor.implementation call).given[j]? = some x ∧ answer[j]? = some output ∧
          i.descriptor.Leaves (i.descriptor.implementation call).given answer output y ∧
          (i.descriptor.implementation call).mapping.Overlays x y out) rows outs) ∧
    ∀ call answer, i.Calls rows call → (i.descriptor.implementation call).rows = .ok answer →
      answer.length ≠ rows.length →
        ∃ failure, (i.execute rows).1.outcome = .error failure ∧ failure.kind? = some .processExecution := by
  constructor
  · intro outs h
    obtain ⟨call, hcalls⟩ := exists_calls h
    have hgiven : RowWise (fun _ _ _ => True) call.rows (i.descriptor.implementation call).given :=
      ⟨hg call hcalls, fun _ _ _ _ _ => trivial⟩
    rw [execute_of_calls hcalls] at h
    obtain ⟨mapped, hmap, hprepare⟩ := hcalls
    obtain ⟨answer, hanswer, hfinish⟩ := bind_eq_ok_iff.mp h
    obtain ⟨-, config, hconfig, henter⟩ := prepare_rows hprepare
    have hway := (henter.comp hgiven).comp (finish_rows hfinish)
    refine ⟨mapped, call, answer, config, hmap, hprepare, hanswer, hconfig, hway.1, ?_⟩
    intro j row out hrow hout
    obtain ⟨x, hx, ⟨entered, he, hentered, -⟩, output, y, ho, hleft, hover⟩ := hway.2 j row out hrow hout
    exact ⟨entered, x, output, y, he, hentered, hx, ho, hleft, hover⟩
  · intro call answer hcalls hanswer hlength
    have hmiscount : answer.length ≠ (i.descriptor.implementation call).given.length := by
      rwa [hg call hcalls, hcalls.length_rows]
    refine ⟨miscounted answer.length (i.descriptor.implementation call).given.length, ?_, rfl⟩
    rw [execute_of_calls hcalls, hanswer]
    change (i.descriptor.finish _ _ answer).outcome = _
    rw [finish, if_pos hmiscount]
    rfl

theorem calls_ofCarbon (implementation : Implementation) (mode : MappingMode) (rows : List Record) :
    let i := ofCarbon implementation ∅ mode
    i.Calls rows ⟨rows.map i.mapping.mapInput, configForCall ∅ none i.mapping, i.mapping⟩ :=
  ⟨∅, mapRecord_empty _, prepare_of_plain (plain_ofCarbon implementation ∅ mode) _ _ _⟩

/-- A plugin that sets `carbon` gives a row laid over another one under its table; a plugin that answers
without rows fails. -/
theorem execute_rows_of_carbon :
    let i := ofCarbon (Stock.Implementation.run (.set (.text "carbon") (.int 99))) ∅ .snapshot
    let i' := ofCarbon (Stock.Implementation.run (.rows [])) ∅ .snapshot
    let row : Record := ⟨[(.text "cpu", .int 1), (.text "carbon-product", .int 2)], by decide⟩
    (∀ call, i.Calls [row] call → (i.descriptor.implementation call).given.length = call.rows.length) ∧
    (∃ out, (i.execute [row]).1.outcome = .ok [out] ∧
      out.entries = [(.text "cpu", .int 1), (.text "carbon-product", .int 99)] ∧
        ∃ x y, i.mapping.Overlays x y out) ∧
    ∃ failure, (i'.execute [row]).1.outcome = .error failure ∧
      failure.kind? = some .processExecution := by
  intro i i' row
  refine ⟨fun _ _ => rfl, ?_, ?_⟩
  · have hok : (i.execute [row]).1.outcome =
        .ok [⟨[(.text "cpu", .int 1), (.text "carbon-product", .int 99)], by decide⟩] := rfl
    obtain ⟨mapped, call, answer, config, hmap, -, -, -, hrows⟩ :=
      (execute_rows i [row] fun _ _ => rfl).1 _ hok
    obtain ⟨-, x, -, y, -, -, -, -, -, hover⟩ := hrows.2 0 row _ rfl rfl
    obtain ⟨-, hmapping⟩ := Prod.mk.inj (Except.ok.inj (hmap.symm.trans (mapRecord_empty i.mapping)))
    refine ⟨_, hok, rfl, x, y, ?_⟩
    rw [← hmapping]
    exact hover
  · exact (execute_rows i' [row] fun _ _ => rfl).2 _ [] (calls_ofCarbon _ _ [row]) rfl (by decide)

/-- **A table that the implementation edits**: it takes the entry of `carbon` out of its table, and the copy
that the row got under this name stays in the result. So the result is not what the table that was left
after the config was mapped would make of any two rows. -/
theorem execute_rows_of_edited_table :
    let i := ofCarbon (Stock.Implementation.run (.editMapping ["carbon"] [])) ∅ .snapshot
    let row : Record := ⟨[(.text "carbon-product", .int 1)], by decide⟩
    i.mapping.mapRecord i.config = .ok (∅, i.mapping) ∧
      ∃ out, (i.execute [row]).1.outcome = .ok [out] ∧ ∀ x y, ¬ i.mapping.Overlays x y out := by
  intro i row
  have hout : (i.execute [row]).1.outcome =
      .ok [⟨[(.text "carbon-product", .int 1), (.text "carbon", .int 1)], by decide⟩] := rfl
  refine ⟨rfl, _, hout, fun x y h => ?_⟩
  obtain ⟨n, hn⟩ := h.hidden "carbon" "carbon-product" (.int 1) rfl rfl
  have hname : i.mapping.get? n = if "carbon" = n then some "carbon-product" else none :=
    Fields.get?_insert ∅ "carbon" n "carbon-product"
  rw [hname] at hn
  split at hn
  · exact absurd (Option.some.inj hn) (by decide)
  · cases hn

/-- **Rows that the implementation edits**: a field that it takes out of its row is not in the result, and where it
takes the last row off its list nobody misses that row. -/
theorem execute_of_edited_rows :
    let dropping : Implementation := fun call =>
      let rows := call.rows.map (·.erase (.text "cpu"))
      ⟨.ok rows, rows, call.mapping⟩
    let popping : Implementation := fun call => ⟨.ok call.rows.dropLast, call.rows.dropLast, call.mapping⟩
    let row : Record := ⟨[(.text "cpu", .int 1)], by decide⟩
    ((ofCarbon dropping ∅ .snapshot).execute [row]).1.outcome = .ok [∅] ∧
      ((ofCarbon popping ∅ .snapshot).execute [row, row]).1.outcome = .ok [row] :=
  ⟨rfl, rfl⟩

end Instance

end RowPipeline
