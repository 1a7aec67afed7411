import RowPipeline.Proofs.Mapping.Changes
import RowPipeline.Proofs.Plugin.Runs
import RowPipeline.Stock.Implementation

/-!
# Several executions

In snapshot mode an execution leaves nothing behind but the state of its instance, and no execution looks
at that (`execute_state`). So each of several executions does what it would have done first
(`executeAll_snapshot`, `executeAll_independent`).

In shared mode the executions of any number of instances use up one table (`executeShared`). An execution
applies an entry if a key or a text of its config was changed by it (`Execution.Applies`); it goes on with the
changed config and takes the applied entries away, and none if its config could not be mapped
(`Execution.Consumes`). What is gone stays gone, so no entry is applied twice (`executeShared_consumes`).
-/

namespace RowPipeline

namespace Instance

variable {i fresh : Instance} {m : Mapping} {rows : List Record} {calls : List (List Record)}

/-! ### On a table of its own -/

/-- What an execution does is the same in every state. -/
theorem execute_state (i : Instance) (state : PluginState) (rows : List Record) :
    { i with state := state }.execute rows = i.execute rows := rfl

/-- In snapshot mode an execution changes the state of its instance only. -/
theorem execute_snapshot (h : i.mode = .snapshot) (rows : List Record) :
    (i.execute rows).2 = { i with state := (i.execute rows).2.state } := by
  have hmapping : (i.execute rows).2.mapping = i.mapping := by
    change (if i.mode = .shared then _ else i.mapping) = i.mapping
    rw [h, if_neg (by decide)]
  change ({ i with state := _, mapping := (i.execute rows).2.mapping } : Instance) = _
  rw [hmapping]
  rfl

/-- **In snapshot mode each execution is the first one.** -/
theorem executeAll_snapshot (h : i.mode = .snapshot) : i.executeAll calls = calls.map i.execute := by
  induction calls generalizing i with
  | nil => rfl
  | cons rows calls ih =>
    have hrest : (i.execute rows).2.executeAll calls = calls.map i.execute := by
      have hsnapshot : (i.execute rows).2.mode = .snapshot := h
      rw [ih hsnapshot, execute_snapshot h]
      exact List.map_congr_left fun rows' _ => execute_state i _ rows'
    change i.execute rows :: (i.execute rows).2.executeAll calls = _
    rw [hrest, List.map_cons]

theorem state_execute (i : Instance) (rows : List Record) : (i.execute rows).2.state =
    if (i.execute rows).1.outcome.isOk then .completed else .failed := by
  rw [execute_outcome]
  rfl

theorem state_execute_eq_completed_iff : (i.execute rows).2.state = .completed ↔
    ∃ outs, (i.execute rows).1.outcome = .ok outs := by
  rw [state_execute]
  cases (i.execute rows).1.outcome <;> simp [Except.isOk, Except.toBool]

theorem state_execute_eq_failed_iff : (i.execute rows).2.state = .failed ↔
    ∃ failure, (i.execute rows).1.outcome = .error failure := by
  rw [state_execute]
  cases (i.execute rows).1.outcome <;> simp [Except.isOk, Except.toBool]

/-- The mode of an instance is that of its settings, and its table is the one it was given. -/
theorem create_ok {d : Descriptor} {settings : Settings} {config metadata : Value}
    (h : create d settings config metadata m = .ok fresh) :
    fresh.mode = settings.mode ∧ fresh.mapping = m := by
  have hbound : ∀ config : Record, ((Metadata.ofValue metadata).bind fun caller => .ok
      { descriptor := d, config, metadata := d.metadata.merge caller, mode := settings.mode,
        mapping := m }) = .ok fresh → fresh.mode = settings.mode ∧ fresh.mapping = m := by
    intro config h
    obtain ⟨caller, -, h⟩ := bind_eq_ok_iff.mp h
    obtain rfl := Except.ok.inj h
    exact ⟨rfl, rfl⟩
  unfold create at h
  split at h
  · exact hbound _ h
  · exact hbound _ h
  · cases h

/-- **Executions in snapshot mode are independent.** Whatever rows a new instance is executed on before, an
execution does what the new instance does on these rows; the table and the config are those of the new
instance after it, and the state tells whether it succeeded. -/
theorem executeAll_independent (d : Descriptor) (settings : Settings) (config metadata : Value)
    (m : Mapping) (fresh : Instance) (calls : List (List Record)) (hs : settings.mode = .snapshot)
    (hf : create d settings config metadata m = .ok fresh) :
    List.Forall₂ (fun rows step =>
      step.1 = (fresh.execute rows).1 ∧ step.2.mapping = m ∧ step.2.config = fresh.config ∧
        (step.2.state = .completed ↔ ∃ outs, step.1.outcome = .ok outs) ∧
        (step.2.state = .failed ↔ ∃ failure, step.1.outcome = .error failure))
      calls (fresh.executeAll calls) := by
  obtain ⟨hmode, hmapping⟩ := create_ok hf
  have hsnapshot : fresh.mode = .snapshot := hmode.trans hs
  rw [executeAll_snapshot hsnapshot, List.forall₂_map_right_iff, List.forall₂_same]
  intro rows _
  refine ⟨rfl, ?_, ?_, state_execute_eq_completed_iff, state_execute_eq_failed_iff⟩
  · rw [execute_snapshot hsnapshot]
    exact hmapping
  · rw [execute_snapshot hsnapshot]

/-- An implementation that hands its rows back, fails without rows, and empties its table. -/
def emptying : Implementation := fun call =>
  ⟨if call.rows.isEmpty then .error .missingKey else .ok call.rows, call.rows, ∅⟩

/-- A failing execution in the middle, and an implementation that empties the table that it gets: the last
execution finds the table whole, and does what the first one did. -/
theorem executeAll_independent_of_failure :
    let fresh := ofCarbon emptying ∅ .snapshot
    let row : Record := ⟨[(.text "cpu", .int 1)], by decide⟩
    ({} : Settings).mode = .snapshot ∧
      create { implementation := emptying } {} .null .null fresh.mapping = .ok fresh ∧
      (fresh.executeAll [[row], [], [row]]).map (fun step => (step.2.state, step.2.mapping)) =
        [(.completed, fresh.mapping), (.failed, fresh.mapping), (.completed, fresh.mapping)] := by
  intro fresh row
  have hcreate : create { implementation := emptying } {} .null .null fresh.mapping = .ok fresh := rfl
  refine ⟨rfl, hcreate, ?_⟩
  have hall := executeAll_independent _ {} .null .null _ fresh [[row], [], [row]] rfl hcreate
  have hok : (fresh.execute [row]).1.outcome = .ok [row] := rfl
  have hfail : (fresh.execute []).1.outcome = .error .missingKey := rfl
  obtain ⟨⟨s₁, i₁⟩, ⟨s₂, i₂⟩, ⟨s₃, i₃⟩, hsteps⟩ :
      ∃ x y z, fresh.executeAll [[row], [], [row]] = [x, y, z] := ⟨_, _, _, rfl⟩
  rw [hsteps] at hall ⊢
  simp only [List.forall₂_cons, List.Forall₂.nil, and_true] at hall
  obtain ⟨⟨rfl, hm₁, -, hc₁, -⟩, ⟨rfl, hm₂, -, -, hf₂⟩, ⟨rfl, hm₃, -, hc₃, -⟩⟩ := hall
  simp only [List.map_cons, List.map_nil, hm₁, hm₂, hm₃, hc₁.mpr ⟨_, hok⟩, hf₂.mpr ⟨_, hfail⟩,
    hc₃.mpr ⟨_, hok⟩]

/-! ### On one table -/

/-- In shared mode the table after an execution is the one that the config left, if it was mapped. -/
theorem mapping_execute_shared (hs : i.mode = .shared) (hl : i.descriptor.LeavesTable)
    (rows : List Record) : (i.execute rows).2.mapping =
      match i.mapping.mapRecord i.config with
      | .ok mapped => mapped.2
      | .error _ => i.mapping := by
  have hrun : (i.execute rows).2.mapping = (i.descriptor.run i.config i.mapping rows).mapping := by
    change (if i.mode = .shared then _ else _) = _
    rw [hs, if_pos rfl]
  rw [hrun, Descriptor.run]
  cases i.mapping.mapRecord i.config with
  | error failure => rfl
  | ok mapped => exact Descriptor.runMapped_mapping hl

end Instance

/-- One of several executions on one table: who executes which rows, the table before and after, and what
comes of it. -/
structure Execution where
  executor : Instance
  rows : List Record
  before : Mapping
  result : Traced (List Record)
  after : Mapping

/-- Executes instances on rows, one after the other, on one table. -/
def executeShared (m : Mapping) : List (Instance × List Record) → List Execution
  | [] => []
  | (i, rows) :: rest =>
    let (result, next) := { i with mapping := m }.execute rows
    ⟨i, rows, m, result, next.mapping⟩ :: executeShared next.mapping rest

/-- The executions of one instance are executions on its table. -/
theorem executeAll_eq_executeShared (i : Instance) (calls : List (List Record)) :
    (i.executeAll calls).map (fun step => (step.1, step.2.mapping)) =
      (executeShared i.mapping (calls.map (Prod.mk i))).map fun e => (e.result, e.after) := by
  suffices hall : ∀ (state : PluginState) (m : Mapping),
      (({ i with state := state, mapping := m } : Instance).executeAll calls).map
          (fun step => (step.1, step.2.mapping)) =
        (executeShared m (calls.map (Prod.mk i))).map fun e => (e.result, e.after) from
    hall i.state i.mapping
  induction calls with
  | nil => exact fun _ _ => rfl
  | cons rows calls ih => exact fun state m => congrArg (List.cons _) (ih _ _)

namespace Execution

variable {e : Execution} {n : String}

/-- The config of an execution is mapped, and this is what comes of it. -/
def Maps (e : Execution) (mapped : Record) : Prop :=
  ∃ left, e.before.mapRecord e.executor.config = .ok (mapped, left)

/-- An entry is applied in an execution: a key or a text of the config was changed by it on the way to the mapped
config. -/
def Applies (e : Execution) (n : String) : Prop :=
  ∃ mapped used, e.Maps mapped ∧ e.before.ChangesRecord e.executor.config mapped used ∧ n ∈ used

/-- What an execution does with the table. Its config is changed as the table says, and the run goes on with the
changed config and the table that is left. Of the table, entries are removed and nothing else: the ones that were
applied, and none if the config could not be mapped. -/
structure Consumes (e : Execution) : Prop where
  restricts : e.after.entries.Sublist e.before.entries
  changes : ∀ mapped, e.Maps mapped → ∃ used, e.before.ChangesRecord e.executor.config mapped used
  goesOn : ∀ mapped, e.Maps mapped →
    e.result = Instance.reportFailure (e.executor.descriptor.runMapped mapped e.after e.rows).result
  removes : ∀ n, ((∃ v, e.before.get? n = some v) ∧ e.after.get? n = none) ↔ e.Applies n
  keeps : ∀ failure, e.before.mapRecord e.executor.config = .error failure →
    e.after = e.before ∧ e.result.outcome = .error failure

/-- An entry that is applied is gone. -/
theorem Consumes.get?_after (h : e.Consumes) (hn : e.Applies n) : e.after.get? n = none :=
  ((h.removes n).mpr hn).2

/-- An entry that is gone is not applied. -/
theorem not_applies (h : e.before.get? n = none) : ¬ e.Applies n := by
  rintro ⟨mapped, used, ⟨left, hmap⟩, hchanges, hn⟩
  obtain ⟨used', -, hkeys, hiff⟩ := Mapping.changesRecord_of_mapRecord hmap
  obtain ⟨-, rfl⟩ := (hiff _ _).mp hchanges
  obtain ⟨v, hv⟩ := Mapping.exists_get?_of_mem_keys (hkeys hn)
  rw [h] at hv
  cases hv

/-- The applied entries are those that the config was changed by. -/
theorem applies_iff {mapped : Record} {left : Mapping} {used : List String}
    (hmap : e.before.mapRecord e.executor.config = .ok (mapped, left))
    (hiff : ∀ mapped' used', e.before.ChangesRecord e.executor.config mapped' used' ↔
      mapped' = mapped ∧ used' = used) : e.Applies n ↔ n ∈ used := by
  constructor
  · rintro ⟨_, _, -, hchanges, hn⟩
    obtain ⟨-, rfl⟩ := (hiff _ _).mp hchanges
    exact hn
  · exact fun hn => ⟨mapped, used, ⟨left, hmap⟩, (hiff _ _).mpr ⟨rfl, rfl⟩, hn⟩

end Execution

namespace Instance

/-- **What one execution consumes.** -/
theorem consumes_execute {i : Instance} {m : Mapping} (hs : i.mode = .shared)
    (hl : i.descriptor.LeavesTable) (rows : List Record) :
    Execution.Consumes ⟨i, rows, m, ({ i with mapping := m }.execute rows).1,
      ({ i with mapping := m }.execute rows).2.mapping⟩ := by
  have hafter := mapping_execute_shared (i := { i with mapping := m }) hs hl rows
  have hresult : ({ i with mapping := m }.execute rows).1 =
      reportFailure (i.descriptor.run i.config m rows).result := rfl
  cases hmap : m.mapRecord i.config with
  | error failure =>
    have hkept : ({ i with mapping := m }.execute rows).2.mapping = m := by
      rw [hafter]
      simp only [hmap]
    have hnot : ∀ mapped, m.mapRecord i.config ≠ .ok mapped := by simp [hmap]
    have hrun : i.descriptor.run i.config m rows = ⟨Traced.fail failure, m⟩ := by
      rw [Descriptor.run, hmap]
    rw [hkept]
    refine ⟨List.Sublist.refl _, fun _ h => absurd h.choose_spec (hnot _),
      fun _ h => absurd h.choose_spec (hnot _), fun n => ⟨?_, ?_⟩, fun failure' hfail => ⟨rfl, ?_⟩⟩
    · rintro ⟨⟨v, hv⟩, hnone⟩
      exact absurd (hnone.symm.trans hv) (by simp)
    · rintro ⟨_, _, ⟨_, hok⟩, -⟩
      exact absurd hok (hnot _)
    · obtain rfl := Except.error.inj (hmap.symm.trans hfail)
      rw [hresult, hrun]
      rfl
  | ok mapped =>
    obtain ⟨mapped, left⟩ := mapped
    obtain ⟨used, rfl, hkeys, hiff⟩ := Mapping.changesRecord_of_mapRecord hmap
    have hleft : ({ i with mapping := m }.execute rows).2.mapping = m.eraseAll used := by
      rw [hafter]
      simp only [hmap]
    have hrun : i.descriptor.run i.config m rows =
        i.descriptor.runMapped mapped (m.eraseAll used) rows := by
      rw [Descriptor.run, hmap]
    have hmapped : ∀ mapped', (∃ left, m.mapRecord i.config = .ok (mapped', left)) → mapped' = mapped := by
      rintro mapped' ⟨left, hmap'⟩
      exact (Prod.mk.inj (Except.ok.inj (hmap'.symm.trans hmap))).1
    rw [hleft, hresult, hrun]
    refine ⟨m.eraseAll_sublist used, fun mapped' h => ?_, fun mapped' h => ?_, fun n => ?_,
      fun failure hfail => absurd (hmap.symm.trans hfail) (by simp)⟩
    · exact ⟨used, (hiff _ _).mpr ⟨hmapped _ h, rfl⟩⟩
    · rw [hmapped _ h]
    · rw [Execution.applies_iff hmap hiff, Fields.get?_eraseAll]
      constructor
      · rintro ⟨⟨v, hv⟩, hnone⟩
        by_contra hn
        rw [if_neg hn, hv] at hnone
        cases hnone
      · exact fun hn => ⟨Mapping.exists_get?_of_mem_keys (hkeys hn), if_pos hn⟩

end Instance

/-- The tables of later executions are parts of the first one. -/
theorem before_sublist {e : Execution} : ∀ {calls : List (Instance × List Record)} {m : Mapping},
    (∀ e' ∈ executeShared m calls, e'.Consumes) → e ∈ executeShared m calls →
      e.before.entries.Sublist m.entries
  | (i, rows) :: calls, m, hall, he => by
    obtain ⟨hfirst, hrest⟩ := List.forall_mem_cons.mp hall
    rcases List.mem_cons.mp he with rfl | he
    · exact List.Sublist.refl _
    · exact (before_sublist hrest he).trans hfirst.restricts

/-- **A shared table is used up.** Of executions by any number of instances in shared mode, each goes on with its
config as the table changes it and removes from the table the entries by which it was changed, nothing else, and
nothing at all if mapping its config fails; and no entry is applied by two of them. -/
theorem executeShared_consumes (m : Mapping) (calls : List (Instance × List Record))
    (hs : ∀ c ∈ calls, c.1.mode = .shared) (hl : ∀ c ∈ calls, c.1.descriptor.LeavesTable) :
    (∀ e ∈ executeShared m calls, e.Consumes) ∧
      (executeShared m calls).Pairwise fun e e' => ∀ n, ¬ (e.Applies n ∧ e'.Applies n) := by
  induction calls generalizing m with
  | nil => exact ⟨by simp [executeShared], List.Pairwise.nil⟩
  | cons c calls ih =>
    obtain ⟨i, rows⟩ := c
    obtain ⟨hsi, hs⟩ := List.forall_mem_cons.mp hs
    obtain ⟨hli, hl⟩ := List.forall_mem_cons.mp hl
    have hfirst := Instance.consumes_execute (m := m) hsi hli rows
    obtain ⟨hrest, hpairs⟩ := ih ({ i with mapping := m }.execute rows).2.mapping hs hl
    refine ⟨List.forall_mem_cons.mpr ⟨hfirst, hrest⟩, List.pairwise_cons.mpr ⟨?_, hpairs⟩⟩
    rintro e he n ⟨hn, hn'⟩
    -- the entry is gone from the table that is left, and so from that of the later execution
    have hgone := hfirst.get?_after hn
    have hsub := before_sublist hrest he
    have hnone : e.before.get? n = none := by
      rw [Fields.get?_eq_none_iff] at hgone ⊢
      exact fun hmem => hgone ((hsub.map Prod.fst).subset hmem)
    exact Execution.not_applies hnone hn'

/-- The first instance has the name as a key of its config and applies the entry; nothing is left of it for
the second one, which has the name in an expression. -/
theorem executeShared_consumes_of_two :
    let i := Instance.ofCarbon (Stock.Implementation.run .identity)
      ⟨[(.text "carbon", .int 1)], by decide⟩ .shared
    let i' := Instance.ofCarbon (Stock.Implementation.run .identity)
      ⟨[(.text "rate", .text "=carbon*2")], by decide⟩ .shared
    let calls := [(i, []), (i', [])]
    (∀ c ∈ calls, c.1.mode = .shared) ∧ (∀ c ∈ calls, c.1.descriptor.LeavesTable) ∧
      ∃ e e', executeShared i.mapping calls = [e, e'] ∧ e.Applies "carbon" ∧ ¬ e'.Applies "carbon" ∧
        e.after.get? "carbon" = none := by
  intro i i' calls
  have hs : ∀ c ∈ calls, c.1.mode = .shared := by simp [calls, i, i', Instance.ofCarbon]
  have hl : ∀ c ∈ calls, c.1.descriptor.LeavesTable := by
    have hidentity : ∀ config : Record,
        (Instance.ofCarbon (Stock.Implementation.run .identity) config .shared).descriptor.LeavesTable :=
      fun _ _ => rfl
    simp [calls, i, i', hidentity]
  obtain ⟨hconsumes, hpairs⟩ := executeShared_consumes i.mapping calls hs hl
  obtain ⟨e, e', hsteps⟩ : ∃ e e', executeShared i.mapping calls = [e, e'] := ⟨_, _, rfl⟩
  have happlies : ∀ e ∈ (executeShared i.mapping calls).head?, e.Applies "carbon" := by
    rintro e ⟨⟩
    exact ⟨_, _, ⟨_, rfl⟩, .table rfl (.dict (.renamed rfl (.scalar (by simp)) .nil)), List.mem_cons_self⟩
  rw [hsteps] at hconsumes hpairs happlies
  have he : e.Applies "carbon" := happlies e rfl
  have hne : ¬ e'.Applies "carbon" := fun he' =>
    List.rel_of_pairwise_cons hpairs List.mem_cons_self "carbon" ⟨he, he'⟩
  exact ⟨hs, hl, e, e', hsteps, he, hne, (hconsumes e List.mem_cons_self).get?_after he⟩

end RowPipeline
