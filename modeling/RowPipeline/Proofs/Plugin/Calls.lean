import RowPipeline.Proofs.Plugin.Events
import RowPipeline.Proofs.Plugin.Runs
import RowPipeline.Proofs.Record.Configs

/-!
# The config of a call

A plugin that evaluates gets its config in three layers: the config with its closed texts worked out, over
it the config evaluated against the last row, and over both the table under the name `mapping`
(`prepare_layers`, `get?_configForCall`). So an allowed field that holds a marked text reaches the
implementation as the number of its expression (`execute_called`).

There are two exceptions: the field `timestamp` is never evaluated, and the field `mapping` gives way to
the table (`execute_called_of_reserved`). An expression whose value is undefined shows through from the
lower layer (`called_of_marked`).
-/

namespace RowPipeline

open Expression

namespace Descriptor

variable {d : Descriptor} {config out : Record} {m : Mapping} {rows : List Record} {allow : List Key}
  {f : Value → Except Failure Value} {k field : Key} {v : Value} {s : String}

/-! ### The layers -/

theorem mapEntries_ok : ∀ {es fs : List (Key × Value)}, mapEntries f es = .ok fs →
    Entries.keys fs = Entries.keys es ∧ ∀ k v, Entries.get? k es = some v →
      ∃ w, f v = .ok w ∧ Entries.get? k fs = some w
  | [], fs, h => by
    obtain rfl := Except.ok.inj h
    exact ⟨rfl, by simp [Entries.get?]⟩
  | (k, v) :: es, fs, h => by
    obtain ⟨w, hw, h⟩ := bind_eq_ok_iff.mp h
    obtain ⟨rest, hrest, h⟩ := bind_eq_ok_iff.mp h
    obtain rfl := Except.ok.inj h
    obtain ⟨hkeys, hget⟩ := mapEntries_ok hrest
    refine ⟨by simp [hkeys], fun k' v' hv' => ?_⟩
    by_cases hk : k = k'
    · obtain rfl : v = v' := by simpa [Entries.get?, hk] using hv'
      exact ⟨w, hw, by simp [Entries.get?, hk]⟩
    · obtain ⟨w', hw', hget'⟩ := hget k' v' (by simpa [Entries.get?, hk] using hv')
      exact ⟨w', hw', by simpa [Entries.get?, hk] using hget'⟩

/-- A field of a record whose values are changed. -/
theorem get?_mapFields (h : mapFields f config = .ok out) (hv : config.get? k = some v) :
    ∃ w, f v = .ok w ∧ out.get? k = some w := by
  obtain ⟨es, hes, h⟩ := bind_eq_ok_iff.mp h
  obtain rfl := Except.ok.inj h
  obtain ⟨hkeys, hget⟩ := mapEntries_ok hes
  obtain ⟨w, hw, hget⟩ := hget k v hv
  have hn : (Entries.keys es).Nodup := hkeys ▸ config.nodup
  refine ⟨w, hw, ?_⟩
  rw [Fields.get?_ofList, Entries.get?_reverse hn, hget]

/-- The config that comes with the rows is the one evaluated against the last of them. -/
theorem evaluateRows_ok : ∀ {rows outs : List Record} {before evaluated : Option Record},
    (evaluateRows config allow before rows).outcome = .ok (outs, evaluated) →
    ∀ last, rows.getLast? = some last → ∃ row overlay, last.evaluate.outcome = .ok row ∧
      (config.evaluateConfig row allow).outcome = .ok overlay ∧ evaluated = some overlay
  | [], _, _, _, _, _, hlast => by cases hlast
  | row :: rows, outs, before, evaluated, h, last, hlast => by
    obtain ⟨row', hrow, h⟩ := Traced.bind_ok_iff.mp h
    obtain ⟨overlay, hover, h⟩ := Traced.bind_ok_iff.mp h
    obtain ⟨⟨outs', evaluated'⟩, hrest, h⟩ := Traced.bind_ok_iff.mp h
    obtain ⟨rfl, rfl⟩ := Prod.mk.inj (Except.ok.inj h)
    cases rows with
    | nil =>
      obtain rfl : row = last := by simpa using hlast
      obtain ⟨-, rfl⟩ := Prod.mk.inj (Except.ok.inj hrest)
      exact ⟨row', overlay, hrow, hover, rfl⟩
    | cons next rows => exact evaluateRows_ok hrest last (by simpa using hlast)

theorem evaluateRows_one {config row row' overlay : Record} {allow : List Key}
    (hr : row.evaluate.outcome = .ok row') (ho : (config.evaluateConfig row' allow).outcome = .ok overlay) :
    (evaluateRows config allow none [row]).outcome = .ok ([row'], some overlay) := by
  rw [evaluateRows]
  refine Traced.bind_ok_iff.mpr ⟨row', hr, Traced.bind_ok_iff.mpr ⟨overlay, ho, ?_⟩⟩
  rfl

/-- **The layers of a config**: the table is over the evaluated config, which is over the simple one. -/
theorem get?_configForCall (simple : Record) (overlay : Option Record) (m : Mapping)
    (hk : k ≠ .text "mapping") : (configForCall simple overlay m).get? k =
      ((overlay.getD ∅).get? k).or (simple.get? k) := by
  rw [configForCall, Fields.get?_insert, if_neg (Ne.symm hk), Fields.get?_merge]

/-- **What a plugin that evaluates is called with**: the config as its validator accepted it, below the
config evaluated against the last row. -/
theorem prepare_layers {call : Call} {last : Record} (ha : d.allow = some allow)
    (hl : rows.getLast? = some last) (h : (d.prepare config m rows).outcome = .ok call) :
    ∃ simple row overlay accepted, mapFields evaluateSimple config = .ok simple ∧
      last.evaluate.outcome = .ok row ∧ (simple.evaluateConfig row allow).outcome = .ok overlay ∧
        (d.configValidator.acceptConfig simple).outcome = .ok accepted ∧
          call.config = configForCall accepted (some overlay) m := by
  obtain ⟨simple, outs, evaluated, accepted, -, -, heval, haccept, -, -, rfl⟩ := prepare_ok h
  rw [evaluateAll, ha] at heval
  obtain ⟨simple', hsimple, heval⟩ := Traced.bind_ok_iff.mp heval
  obtain ⟨⟨outs', evaluated'⟩, hrows, heval⟩ := Traced.bind_ok_iff.mp heval
  obtain ⟨rfl, hsame⟩ := Prod.mk.inj (Except.ok.inj heval)
  obtain ⟨-, rfl⟩ := Prod.mk.inj hsame
  obtain ⟨row, overlay, hrow, hover, rfl⟩ := evaluateRows_ok hrows last hl
  exact ⟨simple', row, overlay, accepted, hsimple, hrow, hover, haccept, rfl⟩

/-- `prepare_layers` for a validator that takes every config as it is. -/
theorem prepare_evaluated {call : Call} {last : Record} (ha : d.allow = some allow)
    (hv : ∀ c, (d.configValidator.acceptConfig c).outcome = .ok c) (hl : rows.getLast? = some last)
    (h : (d.prepare config m rows).outcome = .ok call) : ∃ simple row overlay,
      mapFields evaluateSimple config = .ok simple ∧ last.evaluate.outcome = .ok row ∧
        (simple.evaluateConfig row allow).outcome = .ok overlay ∧
          call.config = configForCall simple (some overlay) m := by
  obtain ⟨simple, row, overlay, accepted, hsimple, hrow, hover, haccept, hcall⟩ :=
    prepare_layers ha hl h
  obtain rfl : simple = accepted := Except.ok.inj ((hv simple).symm.trans haccept)
  exact ⟨simple, row, overlay, hsimple, hrow, hover, hcall⟩

/-! ### Marked fields -/

/-- What shows of an allowed field with a marked text: the number of its expression, and where there is
none the value that the simple config has. -/
theorem called_of_marked {simple row overlay : Record} (hs : mapFields evaluateSimple config = .ok simple)
    (ho : (simple.evaluateConfig row allow).outcome = .ok overlay) (hf : field ∈ allow)
    (ht : field ≠ timestamp) (hm : field ≠ .text "mapping") (hv : config.get? field = some (.text s))
    (hmark : hasMarker s) : ∃ a, (evaluate row allow field (.text s)).outcome = .ok (.ofNumber? a) ∧
      (configForCall simple (some overlay) m).get? field = match a with
        | some b => some (.ofNumber b)
        | none => simple.get? field := by
  have hallows : allows allow field := by simp [allows, hf]
  rw [get?_configForCall _ _ _ hm]
  obtain ⟨w, hw, hget⟩ := get?_mapFields hs hv
  obtain ⟨x, hx, hover⟩ := Record.get?_evaluateConfig ho hf hget
  by_cases hc : isClosed s
  · -- a closed text is a number already when the rows are evaluated
    rw [evaluateSimple, if_pos hc] at hw
    obtain ⟨a, ha, rfl⟩ := map_eq_ok_iff.mp hw
    have heval : (evaluate row allow field (.text s)).outcome = .ok (.ofNumber? a) := by
      rw [evaluate, evaluateWith_of_closed ht hallows hc, ha]
      rfl
    rw [evaluate, evaluateWith_of_inert ht (by rw [needsEvaluation_ofNumber?]; rfl)] at hx
    obtain rfl := Except.ok.inj hx
    refine ⟨a, heval, ?_⟩
    rw [Option.getD_some, hover, hget, Bool.and_not_self]
    cases a <;> rfl
  · rw [evaluateSimple, if_neg hc] at hw
    obtain rfl := Except.ok.inj hw
    have hn : needsEvaluation (.text s) := needsEvaluation_iff.mpr ⟨s, rfl, Or.inl hmark⟩
    obtain ⟨a, rfl⟩ := evaluateWith_number ht hn hallows hx
    refine ⟨a, hx, ?_⟩
    rw [Option.getD_some, hover]
    cases a with
    | none => rfl
    | some b => cases b <;> rfl

end Descriptor

namespace Instance

open Descriptor

/-! ### An implementation that hands its rows back -/

/-- A plugin that hands its rows back, with a config and the fields of it that may hold expressions. -/
def handingBack (allow : List Key) (config : Record) : Instance where
  descriptor := { implementation := fun call => ⟨.ok call.rows, call.rows, call.mapping⟩, allow := some allow }
  config
  metadata := {}
  mode := .snapshot
  mapping := ∅

theorem called_handingBack {allow : List Key} {config simple plain : Record} {overlay : Option Record}
    {rows outs : List Record} (hs : mapFields evaluateSimple config = .ok simple)
    (ho : (evaluateRows simple allow none rows).outcome = .ok (outs, overlay))
    (hp : mapFields extractVariable simple = .ok plain) :
    Event.called (outs.map (∅ : Mapping).mapInput) (configForCall simple overlay ∅) ∈
      ((handingBack allow config).execute rows).1.events := by
  have heval : ((handingBack allow config).descriptor.evaluateAll config rows).outcome =
      .ok (simple, outs, overlay) := by
    change (liftM (mapFields evaluateSimple config) >>= fun config =>
      evaluateRows config allow none rows >>= fun evaluated =>
        pure (config, evaluated.1, evaluated.2) : Traced _).outcome = _
    refine Traced.bind_ok_iff.mpr ⟨simple, hs, Traced.bind_ok_iff.mpr ⟨(outs, overlay), ho, ?_⟩⟩
    rfl
  have hconfig : (handingBack allow config).descriptor.configForRows simple =
      .ok (if plain.isEmpty then simple else plain) := by
    change (mapFields extractVariable simple).bind (fun plain =>
      .ok (if plain.isEmpty then simple else plain)) = _
    rw [hp]
    rfl
  exact called_iff.mpr ⟨config, ∅, _, rfl, prepare_of_evaluateAll rfl rfl heval hconfig ∅, rfl, rfl⟩

/-- A row with a rate. -/
def rated : Record := ⟨[(.text "rate", .int 3)], by decide⟩

theorem evaluate_rated : rated.evaluate.outcome = .ok rated := rfl

/-- A config with an expression of the rate. -/
def doubled : Record := ⟨[(.text "coefficient", .text "=rate*2")], by decide⟩

/-- The expression has the value 6 in the row. -/
theorem evaluate_doubled : (evaluate rated [.text "coefficient"] (.text "coefficient")
    (.text "=rate*2")).outcome = .ok (.int 6) := by
  have hr : ReadsAs (.text "coefficient") "=rate*2"
      (.binary .mul (.name "rate" false) (.literal (.int 2))) :=
    ⟨by decide, by decide, by decide, by cbv⟩
  have hrate : (resolve rated [.text "coefficient"] [.text "coefficient"] "=rate*2" "rate").outcome =
      .ok (.int 3) := resolve_of_int rfl
  have hf : (finish "=rate*2" (.text "coefficient")
      (.binary .mul (.name "rate" false) (.literal (.int 2))) [.int 3]).outcome =
        .ok (some (.int 6)) := by decide +kernel
  rw [evaluate, evaluateWith_of_one hr (by decide) rfl hrate, hf]
  rfl

/-- A marked text that reads as an expression has the shape that is asked for. -/
theorem checkShape_doubled (field : Key) :
    Record.checkShape field (.text "=rate*2") = .ok (.text "=rate*2") := by
  have hc : isClosed "=rate*2" = false := by decide
  have hm : hasMarker "=rate*2" := by decide
  have he : isExpression "=rate*2" = .ok true := by cbv
  simp only [Record.checkShape, hc, hm, he]
  rfl

theorem extractVariable_doubled : extractVariable (.text "=rate*2") = .ok (.text "rate") := by
  have hc : isClosed "=rate*2" = false := by decide
  have hv : variableName? "=rate*2" = some "rate" := by decide +kernel
  rw [extractVariable, if_neg (by simp [hc]), hv]
  rfl

/-! ### The call -/

/-- **An implementation gets numbers for expressions.** If a plugin that evaluates and whose validator
takes every config as it is is called, then the expression of each allowed field of the mapped config that
holds a marked text is evaluated against the last row as evaluated; and if it has a number, the
implementation gets that number in the field. The fields `timestamp` and `mapping` are excepted. -/
theorem execute_called (i : Instance) (rows rows' : List Record) (config' : Record) (allow : List Key)
    (ha : i.descriptor.allow = some allow)
    (hv : ∀ c, (i.descriptor.configValidator.acceptConfig c).outcome = .ok c) (hr : rows ≠ [])
    (hc : Event.called rows' config' ∈ (i.execute rows).1.events) :
    ∃ mapped left last row, i.mapping.mapRecord i.config = .ok (mapped, left) ∧
      rows.getLast? = some last ∧ last.evaluate.outcome = .ok row ∧
      ∀ field s, field ∈ allow → field ≠ timestamp → field ≠ .text "mapping" →
        mapped.get? field = some (.text s) → hasMarker s →
          ∃ a, (evaluate row allow field (.text s)).outcome = .ok (.ofNumber? a) ∧
            ∀ b, a = some b → config'.get? field = some (.ofNumber b) := by
  obtain ⟨mapped, left, call, hmap, hcall, -, rfl⟩ := called_iff.mp hc
  obtain ⟨last, hl⟩ := Option.isSome_iff_exists.mp (List.getLast?_isSome.mpr hr)
  obtain ⟨simple, row, overlay, hs, hrow, ho, hconfig⟩ := prepare_evaluated ha hv hl hcall
  refine ⟨mapped, left, last, row, hmap, hl, hrow, fun field s hf ht hm hget hmark => ?_⟩
  obtain ⟨a, heval, hshown⟩ := called_of_marked (m := left) hs ho hf ht hm hget hmark
  refine ⟨a, heval, ?_⟩
  rintro b rfl
  rw [hconfig, hshown]

/-- The implementation gets the number 6 for the expression. -/
theorem execute_called_of_doubled :
    let i := handingBack [.text "coefficient"] doubled
    i.descriptor.allow = some [.text "coefficient"] ∧
      (∀ c, (i.descriptor.configValidator.acceptConfig c).outcome = .ok c) ∧ [rated] ≠ [] ∧
      ∃ rows' config', Event.called rows' config' ∈ (i.execute [rated]).1.events ∧
        config'.get? (.text "coefficient") = some (.int 6) := by
  intro i
  have hsimple : mapFields evaluateSimple doubled = .ok doubled := rfl
  have hplain : mapFields extractVariable doubled =
      .ok ⟨[(.text "coefficient", .text "rate")], by decide⟩ := by
    rw [mapFields, doubled]
    simp only [mapEntries, extractVariable_doubled]
    rfl
  have hover : (doubled.evaluateConfig rated [.text "coefficient"]).outcome =
      .ok ⟨[(.text "coefficient", .int 6)], by decide⟩ :=
    Record.evaluateAllowed_cons List.mem_cons_self (checkShape_doubled _) evaluate_doubled
  have hc := called_handingBack hsimple (evaluateRows_one evaluate_rated hover) hplain
  have hv : ∀ c, (i.descriptor.configValidator.acceptConfig c).outcome = .ok c := fun c => rfl
  have hr : [rated] ≠ [] := List.cons_ne_nil _ _
  refine ⟨rfl, hv, hr, _, _, hc, ?_⟩
  obtain ⟨mapped, left, last, row, hm, hl, hrow, hall⟩ :=
    execute_called i [rated] _ _ [.text "coefficient"] rfl hv hr hc
  obtain ⟨rfl, -⟩ := Prod.mk.inj (Except.ok.inj hm)
  obtain rfl : rated = last := by simpa using hl
  obtain rfl : rated = row := Except.ok.inj (evaluate_rated.symm.trans hrow)
  obtain ⟨a, ha, hget⟩ := hall (.text "coefficient") "=rate*2" (by simp) (by decide) (by decide) rfl
    (by decide)
  rw [evaluate_doubled] at ha
  exact hget (.int 6) (Value.ofNumber?_injective (Except.ok.inj ha).symm)

/-- A config with an expression in each of the fields that are excepted. -/
def reserved : Record := ⟨[(timestamp, .text "=rate*2"), (.text "mapping", .text "=2*3")], by decide⟩

/-- **The exceptions**: the field `timestamp` reaches the implementation as it is, and the table stands in
the field `mapping`; neither holds a number. -/
theorem execute_called_of_reserved :
    let i := handingBack [timestamp, .text "mapping"] reserved
    i.descriptor.allow = some [timestamp, .text "mapping"] ∧
      (∀ c, (i.descriptor.configValidator.acceptConfig c).outcome = .ok c) ∧ [rated] ≠ [] ∧
      ∃ rows' config' mapped left, Event.called rows' config' ∈ (i.execute [rated]).1.events ∧
        i.mapping.mapRecord i.config = .ok (mapped, left) ∧
        ∀ field ∈ [timestamp, .text "mapping"], ∃ s, mapped.get? field = some (.text s) ∧ hasMarker s ∧
          config'.contains field ∧ ∀ b, config'.get? field ≠ some (.ofNumber b) := by
  intro i
  have hsimple : mapFields evaluateSimple reserved =
      .ok ⟨[(timestamp, .text "=rate*2"), (.text "mapping", .int 6)], by decide⟩ := by
    have hopen : evaluateSimple (.text "=rate*2") = .ok (.text "=rate*2") := rfl
    have hv : evaluateClosed "=2*3" = .ok (some (.int 6)) := by decide +kernel
    have hclosed : evaluateSimple (.text "=2*3") = .ok (.int 6) := by
      rw [evaluateSimple, if_pos (by decide), hv]
      rfl
    rw [mapFields, reserved]
    simp only [mapEntries, hopen, hclosed]
    rfl
  have hplain : mapFields extractVariable
      ⟨[(timestamp, .text "=rate*2"), (.text "mapping", .int 6)], by decide⟩ =
        .ok ⟨[(timestamp, .text "rate"), (.text "mapping", .int 6)], by decide⟩ := by
    rw [mapFields]
    simp only [mapEntries, extractVariable_doubled]
    rfl
  have hover : (Record.evaluateConfig
      ⟨[(timestamp, .text "=rate*2"), (.text "mapping", .int 6)], by decide⟩ rated
        [timestamp, .text "mapping"]).outcome =
          .ok ⟨[(timestamp, .text "=rate*2"), (.text "mapping", .int 6)], by decide⟩ := by
    rw [Record.evaluateConfig, Record.evaluateAllowed_cons (by simp) (checkShape_doubled _) rfl,
      Record.evaluateAllowed_cons (by simp) rfl rfl]
    rfl
  have hc := called_handingBack hsimple (evaluateRows_one evaluate_rated hover) hplain
  refine ⟨rfl, fun c => rfl, List.cons_ne_nil _ _, _, _, reserved, ∅, hc, rfl, fun field hf => ?_⟩
  rcases List.mem_cons.mp hf with rfl | hf
  · refine ⟨"=rate*2", rfl, by decide, rfl, fun b hb => ?_⟩
    cases b <;> cases hb
  · obtain rfl := List.mem_singleton.mp hf
    refine ⟨"=2*3", rfl, by decide, rfl, fun b hb => ?_⟩
    cases b <;> cases hb

end Instance

end RowPipeline
