import RowPipeline.Proofs.Plugin.Executions
import RowPipeline.Stock.Implementation

/-!
# Batches of rows

Without arithmetic nothing in a run looks at two rows together, if the validator of rows heeds their numbers
in its messages only (`Validator.IgnoresIndex`) and the implementation works on each row by itself
(`Implementation.WorksRowByRow`). So rows may be executed in one batch or in several: all of them return or
none does, and the rows that come out are the same (`execute_append`).

What comes before the rows, mapping and accepting the config, is the same for every batch. After that a run
does one thing to each row: accept it, work on it and lay the answer over it (`Descriptor.workRow`). That it
gives rows iff this does so for each of them is `run_ok_iff`.
-/

namespace RowPipeline

/-- A validator that heeds the number of a row in its messages only: a row that is accepted under one number
is accepted under each, and in the same form. -/
def Validator.IgnoresIndex (v : Validator) : Prop := ∀ row config j j' accepted,
  (v.acceptRow row config j).outcome = .ok accepted → (v.acceptRow row config j').outcome = .ok accepted

theorem Validator.ignoresIndex_passThrough : Validator.passThrough.IgnoresIndex :=
  fun _ _ _ _ _ h => h

/-- Models and schemas put the number of a row into their reports and use it for nothing else. -/
theorem Validator.ignoresIndex_checker (c : Checker) : (Validator.checker c).IgnoresIndex := by
  intro row config j j' accepted h
  obtain ⟨v, hcheck, haccepted⟩ := bind_eq_ok_iff.mp h
  obtain ⟨read, hread, hv⟩ := bind_eq_ok_iff.mp hcheck
  refine bind_eq_ok_iff.mpr ⟨v, bind_eq_ok_iff.mpr ⟨read, hread, ?_⟩, haccepted⟩
  cases read with
  | ok w => exact hv
  | error issues => cases hv

/-- An implementation that works on each row by itself: its answer to a row and what it leaves of that row
depend on the row and the config, and the table that it leaves does not depend on the rows. -/
structure Implementation.WorksRowByRow (f : Implementation)
    (g : Record → Record → Except Failure Record) (leave : Record → Record → Record) : Prop where
  rows : ∀ call, (f call).rows = call.rows.mapM fun row => g row call.config
  given : ∀ call answer, (f call).rows = .ok answer →
    (f call).given = call.rows.map fun row => leave row call.config
  table : ∀ rows rows' config m, (f ⟨rows, config, m⟩).mapping = (f ⟨rows', config, m⟩).mapping

namespace Descriptor

variable {d : Descriptor} {config : Record} {m : Mapping} {rows outs : List Record}
  {g : Record → Record → Except Failure Record} {leave : Record → Record → Record}

/-- Rows are accepted one by one, from whatever number on. -/
theorem acceptRows_ok_iff {v : Validator} (hv : v.IgnoresIndex) (index : Nat) :
    (acceptRows v config m index rows).outcome = .ok outs ↔
      rows.mapM (fun row => (v.acceptRow row config 0).outcome.map fun accepted =>
        row.merge (m.mapInput accepted)) = .ok outs := by
  induction rows generalizing index outs with
  | nil => rfl
  | cons row rows ih =>
    rw [acceptRows, mapM_cons_ok]
    constructor
    · intro h
      obtain ⟨accepted, haccept, h⟩ := Traced.bind_ok_iff.mp h
      obtain ⟨rest, hrest, h⟩ := Traced.bind_ok_iff.mp h
      exact ⟨_, rest, map_eq_ok_iff.mpr ⟨accepted, hv row config _ 0 accepted haccept, rfl⟩,
        (ih (index + 1)).mp hrest, (Except.ok.inj h).symm⟩
    · rintro ⟨z, rest, hz, hrest, rfl⟩
      obtain ⟨accepted, haccept, rfl⟩ := map_eq_ok_iff.mp hz
      exact Traced.bind_ok_iff.mpr ⟨accepted, hv row config 0 _ accepted haccept,
        Traced.bind_ok_iff.mpr ⟨rest, (ih (index + 1)).mpr hrest, rfl⟩⟩

/-- What a plugin that evaluates nothing is called with. -/
theorem prepare_ok_of_allow (ha : d.allow = none) {call : Call} :
    (d.prepare config m rows).outcome = .ok call ↔
      ∃ accepted prepared, (d.configValidator.acceptConfig config).outcome = .ok accepted ∧
        (acceptRows d.rowValidator accepted m 0 rows).outcome = .ok prepared ∧
        call = ⟨prepared, configForCall accepted none m, m⟩ := by
  have heval : d.evaluateAll config rows = pure (config, rows, none) := by
    rw [evaluateAll, ha]
  have hrowConfig : ∀ accepted, d.configForRows accepted = .ok accepted := by
    intro accepted
    rw [configForRows, evaluates_of_allow ha]
    rfl
  constructor
  · intro h
    obtain ⟨simple, evaluated, overlay, accepted, rowConfig, prepared, he, haccept, hconfig, hrows,
      hcall⟩ := prepare_ok h
    rw [heval] at he
    obtain ⟨rfl, rfl, rfl⟩ : config = simple ∧ rows = evaluated ∧ none = overlay := by
      simpa using Except.ok.inj he
    obtain rfl := Except.ok.inj ((hrowConfig accepted).symm.trans hconfig)
    exact ⟨accepted, prepared, haccept, hrows, hcall⟩
  · rintro ⟨accepted, prepared, haccept, hrows, rfl⟩
    rw [prepare]
    refine Traced.bind_ok_iff.mpr ⟨(config, rows, none), by rw [heval]; rfl, ?_⟩
    refine Traced.bind_ok_iff.mpr ⟨accepted, haccept, Traced.bind_ok_iff.mpr ⟨(), rfl, ?_⟩⟩
    exact Traced.bind_ok_iff.mpr ⟨accepted, hrowConfig accepted,
      Traced.bind_ok_iff.mpr ⟨prepared, hrows, rfl⟩⟩

/-- What a run does to one row, from the config as it is accepted and the table that it left. -/
def workRow (d : Descriptor) (g : Record → Record → Except Failure Record)
    (leave : Record → Record → Record) (config : Record) (m : Mapping) (row : Record) :
    Except Failure Record :=
  let call : Call := ⟨[], configForCall config none m, m⟩
  let left := (d.implementation call).mapping
  ((d.rowValidator.acceptRow row config 0).outcome.map fun accepted =>
    row.merge (m.mapInput accepted)).bind fun prepared =>
      (g prepared call.config).map fun output =>
        (left.removeMapped (leave prepared call.config)).merge (left.mapOutput output)

/-- **A run goes row by row**: once the config is mapped and accepted, it gives rows iff the work on each of
them gives one, and those are the rows. -/
theorem run_ok_iff (ha : d.allow = none) (hv : d.rowValidator.IgnoresIndex)
    (hf : d.implementation.WorksRowByRow g leave) :
    (d.run config m rows).result.outcome = .ok outs ↔
      ∃ mapped left accepted, m.mapRecord config = .ok (mapped, left) ∧
        (d.configValidator.acceptConfig mapped).outcome = .ok accepted ∧
        rows.mapM (d.workRow g leave accepted left) = .ok outs := by
  -- the answer to the rows of a call, laid over them; the table does not depend on the rows
  have hfinish : ∀ accepted left prepared answer,
      let call : Call := ⟨prepared, configForCall accepted none left, left⟩
      prepared.mapM (g · call.config) = .ok answer →
        (d.finish (d.implementation call).mapping (d.implementation call).given answer).outcome =
          .ok (List.zipWith (fun row output =>
            ((d.implementation { call with rows := [] }).mapping.removeMapped (leave row call.config)).merge
              ((d.implementation { call with rows := [] }).mapping.mapOutput output)) prepared answer) := by
    intro accepted left prepared answer call hanswer
    have hlength : answer.length = prepared.length := length_of_mapM_ok hanswer
    have hgiven := hf.given call answer ((hf.rows call).trans hanswer)
    rw [finish_of_allow ha, hgiven, List.length_map, if_neg (not_not_intro hlength), List.zipWith_map_left,
      hf.table prepared []]
  rw [run_outcome]
  constructor
  · intro h
    obtain ⟨⟨mapped, left⟩, hmap, h⟩ := bind_eq_ok_iff.mp h
    obtain ⟨call, hcall, h⟩ := bind_eq_ok_iff.mp h
    obtain ⟨accepted, prepared, haccept, hrows, rfl⟩ := (prepare_ok_of_allow ha).mp hcall
    obtain ⟨answer, hanswer, h⟩ := bind_eq_ok_iff.mp h
    rw [hf.rows] at hanswer
    rw [hfinish _ _ _ _ hanswer] at h
    have hprepared := (acceptRows_ok_iff hv 0).mp hrows
    refine ⟨mapped, left, accepted, hmap, haccept, mapM_zipWith_ok.mp ?_⟩
    exact ⟨prepared, answer, hprepared, hanswer, (Except.ok.inj h).symm⟩
  · rintro ⟨mapped, left, accepted, hmap, haccept, hrows⟩
    obtain ⟨prepared, answer, hprepared, hanswer, rfl⟩ := mapM_zipWith_ok.mpr hrows
    have hcall := (prepare_ok_of_allow ha).mpr
      ⟨accepted, prepared, haccept, (acceptRows_ok_iff hv 0).mpr hprepared, rfl⟩
    refine bind_eq_ok_iff.mpr ⟨(mapped, left), hmap, bind_eq_ok_iff.mpr ⟨_, hcall, ?_⟩⟩
    exact bind_eq_ok_iff.mpr ⟨answer, (hf.rows _).trans hanswer, hfinish _ _ _ _ hanswer⟩

/-- A run on two batches at once. -/
theorem run_append_ok_iff {xs ys : List Record} (ha : d.allow = none)
    (hv : d.rowValidator.IgnoresIndex) (hf : d.implementation.WorksRowByRow g leave) :
    (d.run config m (xs ++ ys)).result.outcome = .ok outs ↔
      ∃ as bs, (d.run config m xs).result.outcome = .ok as ∧
        (d.run config m ys).result.outcome = .ok bs ∧ outs = as ++ bs := by
  simp only [run_ok_iff ha hv hf]
  constructor
  · rintro ⟨mapped, left, accepted, hmap, haccept, hrows⟩
    obtain ⟨as, bs, has, hbs, rfl⟩ := mapM_append_ok.mp hrows
    exact ⟨as, bs, ⟨mapped, left, accepted, hmap, haccept, has⟩,
      ⟨mapped, left, accepted, hmap, haccept, hbs⟩, rfl⟩
  · rintro ⟨as, bs, ⟨mapped, left, accepted, hmap, haccept, has⟩,
      ⟨mapped', left', accepted', hmap', haccept', hbs⟩, rfl⟩
    obtain ⟨rfl, rfl⟩ := Prod.mk.inj (Except.ok.inj (hmap.symm.trans hmap'))
    obtain rfl := Except.ok.inj (haccept.symm.trans haccept')
    exact ⟨mapped, left, accepted, hmap, haccept, mapM_append_ok.mpr ⟨as, bs, has, hbs, rfl⟩⟩

end Descriptor

/-- The work of `multiply` on one row. -/
def Stock.Implementation.multiplyRow (source : Key) (factor target : Setting) (row config : Record) :
    Except Failure Record := do
  let field ← target.value config
  let value ← (← demand row source).product (← factor.value config)
  return row.insert (← field.asKey) value

theorem Stock.Implementation.worksRowByRow_product (source : Key) (factor target : Setting) :
    (run (.product source factor target)).WorksRowByRow (multiplyRow source factor target)
      (fun row _ => row) where
  rows call := by
    change call.rows.mapM _ = call.rows.mapM _
    congr 1
    funext row
    simp only [multiplyRow, bind_assoc, pure_bind]
  given call _ _ := (List.map_id call.rows).symm
  table _ _ _ _ := rfl

namespace Instance

/-- **Batches do not matter.** In snapshot mode, without arithmetic, with a validator that heeds the numbers
of rows in its messages only and an implementation that works row by row, an execution on two batches at
once returns iff one on each of them does, and it returns what they return, one after the other. It makes
no difference that the second one comes after the first. -/
theorem execute_append (i : Instance) (g : Record → Record → Except Failure Record)
    (leave : Record → Record → Record) (xs ys outs : List Record) (hs : i.mode = .snapshot)
    (ha : i.descriptor.allow = none) (hv : i.descriptor.rowValidator.IgnoresIndex)
    (hf : i.descriptor.implementation.WorksRowByRow g leave) :
    ((i.execute (xs ++ ys)).1.outcome = .ok outs ↔
        ∃ as bs, (i.execute xs).1.outcome = .ok as ∧ (i.execute ys).1.outcome = .ok bs ∧
          outs = as ++ bs) ∧
      ((i.execute xs).2.execute ys).1 = (i.execute ys).1 := by
  constructor
  · simp only [execute_outcome]
    exact Descriptor.run_append_ok_iff ha hv hf
  · rw [execute_snapshot hs, execute_state]

/-- A validator of rows that wants the field `carbon-product`, and tells which row lacks it. -/
def wantsCarbon : Validator := .function {
  onConfig := fun _ => .ok none
  onRow := fun row _ index =>
    if row.contains (.text "carbon-product") then .ok none
    else .error (.raised .inputValidation ("No carbon in row " ++ toString index ++ ".")) }

theorem ignoresIndex_wantsCarbon : wantsCarbon.IgnoresIndex := by
  intro row config j j' accepted h
  obtain ⟨_, -, h⟩ := Traced.bind_ok_iff.mp h
  refine Traced.bind_ok_iff.mpr ⟨(), rfl, ?_⟩
  by_cases hrow : row.contains (.text "carbon-product")
  · simp only [hrow, if_true] at h ⊢
    exact h
  · simp only [hrow] at h
    cases h

/-- Two rows with their carbon multiplied in one execution, and a row without carbon that fails alone and in
a batch; the factor is in the config. -/
theorem execute_append_of_product :
    let work := Stock.Implementation.product (.text "carbon") (.fromConfig (.text "factor"))
      (.fixed (.text "carbon"))
    let i : Instance := { ofCarbon work.run ⟨[(.text "factor", .int 3)], by decide⟩ .snapshot with
      descriptor := { implementation := work.run, rowValidator := wantsCarbon } }
    let row (n : Int) : Record := Fields.insert ∅ (.text "carbon-product") (.int n)
    i.mode = .snapshot ∧ i.descriptor.allow = none ∧ i.descriptor.rowValidator.IgnoresIndex ∧
      i.descriptor.implementation.WorksRowByRow
        (Stock.Implementation.multiplyRow (.text "carbon") (.fromConfig (.text "factor"))
          (.fixed (.text "carbon"))) (fun row _ => row) ∧
      (i.execute ([row 2] ++ [row 5])).1.outcome = .ok ([row 6] ++ [row 15]) ∧
      ∀ outs, (i.execute ([row 2] ++ [∅])).1.outcome ≠ .ok outs := by
  intro work i row
  have hv : i.descriptor.rowValidator.IgnoresIndex := ignoresIndex_wantsCarbon
  have hf := Stock.Implementation.worksRowByRow_product (.text "carbon") (.fromConfig (.text "factor"))
    (.fixed (.text "carbon"))
  have happend := fun ys outs => (execute_append i _ _ [row 2] ys outs rfl rfl hv hf).1
  have hfirst : (i.execute [row 2]).1.outcome = .ok [row 6] := rfl
  have hsecond : (i.execute [row 5]).1.outcome = .ok [row 15] := rfl
  have hempty : (i.execute [∅]).1.outcome =
      .error (.raised .inputValidation "No carbon in row 0.") := rfl
  refine ⟨rfl, rfl, hv, hf, (happend _ _).mpr ⟨_, _, hfirst, hsecond, rfl⟩, fun outs h => ?_⟩
  obtain ⟨_, bs, -, hbs, -⟩ := (happend _ _).mp h
  rw [hempty] at hbs
  cases hbs

end Instance

end RowPipeline
