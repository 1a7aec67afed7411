import RowPipeline.Proofs.Fields
import RowPipeline.Proofs.Manifest.Schema
import RowPipeline.Proofs.Metadata

/-!
# Manifests that keep the schema

What the schema accepts goes to readers that know nothing of it: references are split at their first colon,
instances are made from the config, and the metadata is read parameter by parameter. Each of them succeeds on
the part of a manifest that it is given: a reference has two names (`Registry.splitTarget?_of_isReference`), the
config makes the same instance as it is written (`Manifest.create_eq`), and methods, parameters and metadata are
read one inside the other (`Metadata.ofValue_of_isMetadata`).

Main statement: a value is read as a manifest iff it has no issues under the schema, and what is read has the
shape that its run needs (`Manifest.ofValue_shape`).
-/

namespace RowPipeline

open Schema Manifest

/-! ### References -/

namespace Registry

variable {target : String}

theorem splitTarget?_of_isReference (h : IsReference target) :
    ∃ name member, splitTarget? target = some (name, member) := by
  obtain ⟨c, front, d, back, ending, htarget, hc, hfront, -⟩ := h
  have hfirst : firstLetters.contains ':' = false := by decide
  have hmodule : moduleLetters.contains ':' = false := by decide
  have hbefore : ∀ x ∈ c :: front, (x != ':') = true := by
    intro x hx
    rw [bne_iff_ne]
    rintro rfl
    rcases List.mem_cons.mp hx with rfl | hx
    · rw [hc] at hfirst
      cases hfirst
    · rw [hfront _ hx] at hmodule
      cases hmodule
  have hsplit : target.toList = (c :: front) ++ ':' :: d :: (back ++ ending) := htarget
  refine ⟨String.ofList (c :: front), String.ofList (d :: (back ++ ending)), ?_⟩
  simp only [splitTarget?, hsplit, List.takeWhile_append_of_pos hbefore, List.dropWhile_append_of_pos hbefore]
  simp

/-- The failure of a reference that does not have two names. -/
def unsplit (target : String) : Failure :=
  .raised .missingPluginPath ("Plugin `" ++ target ++ "` must be given as `module:attribute`.")

theorem members_ne_unsplit (r : Registry) (name : String) : r.members name ≠ .error (unsplit target) := by
  unfold members unsplit
  split
  · intro h
    cases h
  · split
    · intro h
      cases h
    · intro h
      injection h with h
      injection h with _ htext
      have hhead := congrArg (fun s : String => s.toList.head?) htext
      simp at hhead

theorem find_eq_unsplit_iff (r : Registry) :
    r.find target = .error (unsplit target) ↔ splitTarget? target = none := by
  unfold find
  cases hsplit : splitTarget? target with
  | none => exact iff_of_true rfl rfl
  | some parts =>
    obtain ⟨name, member⟩ := parts
    refine iff_of_false ?_ (by simp)
    intro h
    rcases bind_eq_error_iff.mp h with hmembers | ⟨attributes, -, hlookup⟩
    · exact members_ne_unsplit r name hmembers
    · split at hlookup
      · cases hlookup
      · cases hlookup

/-- A plugin is reported for the form of its reference iff the reference cannot be split. -/
theorem load_eq_unsplit_iff (r : Registry) (settings : Option Settings) (default : Settings) :
    (r.load target settings default).outcome = .error (unsplit target) ↔ splitTarget? target = none := by
  rw [← find_eq_unsplit_iff r, load, Traced.bind_error_iff]
  constructor
  · rintro (h | ⟨found, -, h⟩)
    · exact h
    · rw [Traced.outcome_bind] at h
      cases found <;> cases h
  · exact Or.inl

end Registry

/-! ### Parts that may be left out -/

section Parts

variable {name : String} {P : Value → Prop} {v default : Value}

/-- What is read under a name is in `P` if what stands there is, and so is what is read otherwise. -/
theorem Schema.Under.entryOr (h : Under (.text name) P v) (hdefault : P default) :
    P (AggregationMethod.entryOr (entriesOf v) name default) := by
  unfold AggregationMethod.entryOr
  cases hget : Entries.get? (.text name) (entriesOf v) with
  | none => exact hdefault
  | some w => exact h w hget

theorem Value.entriesOrEmpty_of_isObjectOrNull (h : IsObjectOrNull v) :
    v.entriesOrEmpty = .ok (entriesOf v) := by
  rcases h with ⟨es, rfl⟩ | rfl
  · exact entriesOrEmpty_dict es
  · rfl

end Parts

/-! ### Metadata -/

variable {v : Value}

/-- A method is read, and so is nothing in its place: a dimension that is left out is summed. -/
theorem AggregationMethod.ofEntries_of_isMethod (h : IsMethod v ∨ v = .null) (parameter : String) :
    ∃ es method, v.entriesOrEmpty = .ok es ∧ AggregationMethod.ofEntries es parameter = .ok method := by
  rcases h with h | rfl
  · have hsum : IsAggregation (.text "sum") := ⟨.sum, rfl⟩
    obtain ⟨time, htime⟩ := h.time.entryOr hsum
    obtain ⟨component, hcomponent⟩ := h.component.entryOr hsum
    refine ⟨entriesOf v, ⟨time, component⟩, Value.entriesOrEmpty_of_isObjectOrNull (Or.inl h.object), ?_⟩
    rw [AggregationMethod.ofEntries, htime, hcomponent, Aggregation.ofValue_name, Aggregation.ofValue_name]
    rfl
  · exact ⟨[], ⟨.sum, .sum⟩, rfl, rfl⟩

theorem ParameterMetadata.ofValue_of_isParameter (h : IsParameter v) (parameter : String) :
    ∃ p, ParameterMetadata.ofValue v parameter = .ok p := by
  have hentries : v.entriesOrEmpty = .ok (entriesOf v) :=
    Value.entriesOrEmpty_of_isObjectOrNull (Or.inl h.object)
  have hmethod : Under (.text "aggregation-method") (fun w => IsMethod w ∨ w = .null) v :=
    fun w hw => Or.inl (h.method w hw)
  obtain ⟨es, method, hes, hread⟩ :=
    AggregationMethod.ofEntries_of_isMethod (hmethod.entryOr (Or.inr rfl)) parameter
  exact ⟨_, bind_eq_ok_iff.mpr ⟨_, hentries, bind_eq_ok_iff.mpr ⟨es, hes,
    bind_eq_ok_iff.mpr ⟨method, hread, rfl⟩⟩⟩⟩

namespace Parameters

theorem ofEntries_of_isParameter {es : List (Key × Value)} (h : ∀ e ∈ es, IsParameter e.2) :
    ∃ ps, ofEntries es = .ok ps := by
  induction es with
  | nil => exact ⟨[], rfl⟩
  | cons e es ih =>
    obtain ⟨name, w⟩ := e
    rw [List.forall_mem_cons] at h
    obtain ⟨p, hp⟩ := ParameterMetadata.ofValue_of_isParameter h.1 (name.text?.getD "")
    obtain ⟨ps, hps⟩ := ih h.2
    exact ⟨(name, p) :: ps, bind_eq_ok_iff.mpr ⟨p, hp, bind_eq_ok_iff.mpr ⟨ps, hps, rfl⟩⟩⟩

theorem ofValue_of_isParameters (h : IsParameters v) : ∃ ps, ofValue v = .ok ps := by
  obtain ⟨ps, hps⟩ := ofEntries_of_isParameter h.parameters
  exact ⟨.ofList ps, bind_eq_ok_iff.mpr
    ⟨_, Value.entriesOrEmpty_of_isObjectOrNull h.object, bind_eq_ok_iff.mpr ⟨ps, hps, rfl⟩⟩⟩

end Parameters

theorem Manifest.isParameters_null : IsParameters .null :=
  ⟨Or.inr rfl, fun _ he => absurd he List.not_mem_nil⟩

/-- Metadata is read: inputs that are left out are empty, and outputs that are left out are not read at all. -/
theorem Metadata.ofValue_of_isMetadata (h : IsMetadata v) : ∃ m, Metadata.ofValue v = .ok m := by
  have hentries : v.entriesOrEmpty = .ok (entriesOf v) := Value.entriesOrEmpty_of_isObjectOrNull h.object
  obtain ⟨inputs, hinputs⟩ := Parameters.ofValue_of_isParameters (h.inputs.entryOr isParameters_null)
  obtain ⟨outputs, houtputs⟩ := Parameters.ofValue_of_isParameters (h.outputs.entryOr isParameters_null)
  by_cases hnull : (AggregationMethod.entryOr (entriesOf v) "outputs" .null).isNull = true
  · refine ⟨⟨inputs, none⟩, bind_eq_ok_iff.mpr ⟨_, hentries, bind_eq_ok_iff.mpr ⟨inputs, hinputs, ?_⟩⟩⟩
    rw [if_pos hnull]
    rfl
  · refine ⟨⟨inputs, some outputs⟩, bind_eq_ok_iff.mpr ⟨_, hentries, bind_eq_ok_iff.mpr ⟨inputs, hinputs, ?_⟩⟩⟩
    rw [if_neg hnull]
    exact bind_eq_ok_iff.mpr ⟨outputs, houtputs, rfl⟩

/-! ### Manifests -/

namespace Manifest

theorem recordOf_of_isObject (h : IsObject v) : ∃ r, recordOf v = .ok r := by
  obtain ⟨es, rfl⟩ := h
  exact ⟨.ofList es, rfl⟩

theorem recordOrEmpty_of_isObjectOrNull (h : IsObjectOrNull v) : ∃ r, recordOrEmpty v = .ok r := by
  rcases h with ⟨es, rfl⟩ | rfl
  · exact ⟨.ofList es, rfl⟩
  · exact ⟨∅, rfl⟩

theorem isMetadata_null : IsMetadata .null := by
  refine ⟨Or.inr rfl, ?_, ?_, fun _ hk => absurd hk List.not_mem_nil⟩
  · rintro w ⟨⟩
  · rintro w ⟨⟩

theorem IsManifest.config_part {es : List (Key × Value)} (h : IsManifest (.dict es)) :
    IsObjectOrNull (part es "config") :=
  h.config.entryOr (Or.inr rfl)

theorem IsManifest.metadata_part {es : List (Key × Value)} (h : IsManifest (.dict es)) :
    IsMetadata (part es "parameter-metadata") :=
  h.metadata.entryOr isMetadata_null

theorem part_of_get? {es : List (Key × Value)} {name : String}
    (h : Entries.get? (.text name) (entriesOf (.dict es)) = some v) : part es name = v := by
  rw [entriesOf] at h
  rw [part, h]
  rfl

/-- The parts of a manifest are read, the reference of the plugin and the metadata as they stand. -/
theorem ofParts_of_isManifest {es : List (Key × Value)} (h : IsManifest (.dict es)) (base : Option String) :
    ∃ m, ofParts es base = .ok m ∧ IsReference m.plugin ∧ recordOrEmpty (part es "config") = .ok m.config ∧
      m.metadata = part es "parameter-metadata" := by
  obtain ⟨w, hplugin⟩ := h.required (.text "plugin") (by decide)
  obtain ⟨plugin, rfl, hreference⟩ := h.plugin w hplugin
  obtain ⟨w, hinputs⟩ := h.required (.text "inputs") (by decide)
  obtain ⟨rows, rfl, hrows⟩ := h.inputs w hinputs
  obtain ⟨inputs, hread⟩ := exists_mapM_ok fun row hrow => recordOf_of_isObject (hrows row hrow)
  obtain ⟨config, hconfig⟩ := recordOrEmpty_of_isObjectOrNull h.config_part
  refine ⟨⟨plugin, inputs, config, .ofValue (part es "mapping"), part es "parameter-metadata", base⟩, ?_,
    hreference, hconfig, rfl⟩
  rw [ofParts, part_of_get? hplugin, part_of_get? hinputs]
  exact bind_eq_ok_iff.mpr ⟨inputs, hread, bind_eq_ok_iff.mpr ⟨config, hconfig, rfl⟩⟩

theorem ofValue_eq_ofParts {es : List (Key × Value)} (h : IsManifest (.dict es)) (base : Option String) :
    ofValue (.dict es) base = ofParts es base := by
  have hcheck : (Checker.schema schema).check (.dict es) none .manifestValidation = .ok (.dict es) :=
    Checker.check_schema_iff.mpr ⟨issues_schema_iff.mpr h, rfl⟩
  rw [ofValue, hcheck]
  rfl

theorem isManifest_of_ofValue {base : Option String} {m : Manifest} (h : ofValue v base = .ok m) :
    IsManifest v := by
  obtain ⟨w, hcheck, -⟩ := bind_eq_ok_iff.mp h
  exact issues_schema_iff.mp (Checker.check_schema_iff.mp hcheck).1

/-- The config of a manifest makes the instance that the config makes as it is written. -/
theorem create_eq {m : Manifest} {w : Value} (hw : IsObjectOrNull w) (h : recordOrEmpty w = .ok m.config)
    (f : Factory) : m.create f = Instance.create f.descriptor f.settings w m.metadata m.mapping := by
  rcases hw with ⟨cs, rfl⟩ | rfl
  · have hconfig : Fields.ofList cs = m.config := Except.ok.inj h
    have hagain : Fields.ofList m.config.entries = Fields.ofList cs := by rw [Fields.ofList_entries, hconfig]
    rw [create, Value.ofRecord, Instance.create, hagain, Instance.create]
  · have hconfig : ∅ = m.config := Except.ok.inj h
    rw [create, Value.ofRecord, ← hconfig]
    rfl

theorem create_of_isMetadata {m : Manifest} (h : IsMetadata m.metadata) (f : Factory) :
    ∃ i, m.create f = .ok i := by
  obtain ⟨caller, hcaller⟩ := Metadata.ofValue_of_isMetadata h
  exact ⟨_, bind_eq_ok_iff.mpr ⟨caller, hcaller, rfl⟩⟩

/-- **A manifest that keeps the schema has the shape that its run needs.** A value is read iff it has no issues
under the schema. The reference of what is read can be split, every plugin makes an instance with the config and
the metadata that are written, and the metadata is read. -/
theorem ofValue_shape (v : Value) (base : Option String) :
    ((∃ m, ofValue v base = .ok m) ↔ schema.issues v = .ok []) ∧
      ∀ m, ofValue v base = .ok m →
        (∀ (r : Registry) (settings : Option Settings) (default : Settings),
          (r.load m.plugin settings default).outcome ≠ .error (.raised .missingPluginPath
            ("Plugin `" ++ m.plugin ++ "` must be given as `module:attribute`."))) ∧
        (∃ es, v = .dict es ∧ ∀ f : Factory, ∃ i, m.create f = .ok i ∧ Instance.create f.descriptor f.settings
          (part es "config") (part es "parameter-metadata") m.mapping = .ok i) ∧
        ∃ metadata, Metadata.ofValue m.metadata = .ok metadata := by
  rw [issues_schema_iff]
  refine ⟨⟨fun ⟨m, hm⟩ => isManifest_of_ofValue hm, fun h => ?_⟩, ?_⟩
  · obtain ⟨es, rfl⟩ := h.object
    obtain ⟨m, hm, -⟩ := ofParts_of_isManifest h base
    exact ⟨m, (ofValue_eq_ofParts h base).trans hm⟩
  · intro m hm
    have h : IsManifest v := isManifest_of_ofValue hm
    obtain ⟨es, rfl⟩ := h.object
    obtain ⟨m', hm', hreference, hconfig, hpart⟩ := ofParts_of_isManifest h base
    obtain rfl := Except.ok.inj (hm.symm.trans ((ofValue_eq_ofParts h base).trans hm'))
    have hmetadata : IsMetadata m.metadata := hpart ▸ h.metadata_part
    refine ⟨?_, ⟨es, rfl, fun f => ?_⟩, Metadata.ofValue_of_isMetadata hmetadata⟩
    · intro r settings default hload
      obtain ⟨name, member, hsplit⟩ := Registry.splitTarget?_of_isReference hreference
      rw [(Registry.load_eq_unsplit_iff r settings default).mp hload] at hsplit
      cases hsplit
    · obtain ⟨i, hi⟩ := create_of_isMetadata hmetadata f
      refine ⟨i, hi, ?_⟩
      rw [← hpart, ← create_eq h.config_part hconfig, hi]

/-- A manifest without a config, whose metadata leaves out a dimension and has no outputs. -/
theorem ofValue_shape_of_partial :
    let metadata : Value := entries [
      ("inputs", entries [("cpu", entries [
        ("unit", .text "kWh"), ("aggregation-method", entries [("time", .text "avg")])])]),
      ("outputs", .null)]
    let v : Value := entries [
      ("plugin", .text "pkg.power:Power"), ("config", .null), ("parameter-metadata", metadata),
      ("inputs", .list [])]
    let m : Manifest := { plugin := "pkg.power:Power", inputs := [], metadata }
    ofValue v = .ok m ∧
      (∀ (r : Registry) (settings : Option Settings) (default : Settings),
        (r.load m.plugin settings default).outcome ≠ .error (.raised .missingPluginPath
          ("Plugin `" ++ m.plugin ++ "` must be given as `module:attribute`."))) ∧
      (∃ es, v = .dict es ∧ ∀ f : Factory, ∃ i, m.create f = .ok i ∧ Instance.create f.descriptor f.settings
        (part es "config") (part es "parameter-metadata") m.mapping = .ok i) ∧
      ∃ parameters, Metadata.ofValue metadata = .ok parameters := by
  intro metadata v m
  have hmethod : IsMethod (entries [("time", .text "avg")]) := by
    refine ⟨⟨_, rfl⟩, ?_, ?_, by decide⟩
    · rintro w ⟨⟩
      exact ⟨.avg, rfl⟩
    · rintro w ⟨⟩
  have hparameter : IsParameter (entries [
      ("unit", .text "kWh"), ("aggregation-method", entries [("time", .text "avg")])]) := by
    refine ⟨⟨_, rfl⟩, ?_, ?_, ?_⟩
    · rintro w ⟨⟩
    · rintro w ⟨⟩
      exact ⟨_, rfl⟩
    · rintro w ⟨⟩
      exact hmethod
  have hmetadata : IsMetadata metadata := by
    refine ⟨Or.inl ⟨_, rfl⟩, ?_, ?_, by decide⟩
    · rintro w ⟨⟩
      exact ⟨Or.inl ⟨_, rfl⟩, fun e he => List.mem_singleton.mp he ▸ hparameter⟩
    · rintro w ⟨⟩
      exact isParameters_null
  have hmanifest : IsManifest v := by
    refine ⟨⟨_, rfl⟩, ?_, by decide, ?_, ?_, ?_, ?_, ?_⟩
    · intro k hk
      rcases List.mem_cons.mp hk with rfl | hk
      · exact ⟨_, rfl⟩
      · obtain rfl := List.mem_singleton.mp hk
        exact ⟨_, rfl⟩
    · rintro w ⟨⟩
      exact ⟨_, rfl, search_reference_iff.mp (by decide +kernel)⟩
    · rintro w ⟨⟩
      exact Or.inr rfl
    · rintro w ⟨⟩
    · rintro w ⟨⟩
      exact hmetadata
    · rintro w ⟨⟩
      exact ⟨[], rfl, fun _ h => absurd h List.not_mem_nil⟩
  have hread : ofValue v = .ok m := ofValue_eq_ofParts hmanifest none
  exact ⟨hread, (ofValue_shape v none).2 m hread⟩

end Manifest

end RowPipeline
