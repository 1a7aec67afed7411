import RowPipeline.Manifest
import RowPipeline.Proofs.Text.Matching
import RowPipeline.Proofs.Validation.Rules

/-!
# What the manifest schema accepts

The schema is written as a value. Here each part of it is read and described by the values that are valid
under it: an aggregation is one of the four names, a method gives aggregations under at most two names, and so
on up to a whole manifest (`IsManifest`). The pattern of plugin references is read as well, and it describes two
names around a colon (`IsReference`).

Main statement: a value has no issues under the schema iff it is a manifest (`issues_schema_iff`).
-/

namespace RowPipeline.Manifest

open Schema Text

/-! ### Plugin references -/

/-- The characters that a name starts with. -/
def firstLetters : CharSet := ⟨[.range 'A' 'Z', .range 'a' 'z', .range '_' '_'], false⟩

/-- The characters of module names. -/
def moduleLetters : CharSet :=
  ⟨[.range 'A' 'Z', .range 'a' 'z', .range '0' '9', .range '_' '_', .range '.' '.'], false⟩

/-- The characters of attribute names. -/
def memberLetters : CharSet := ⟨[.range 'A' 'Z', .range 'a' 'z', .range '0' '9', .range '_' '_'], false⟩

/-- A reference to a plugin: the names of a module and of an attribute around a colon. A newline may stand
behind them. -/
def IsReference (s : String) : Prop :=
  ∃ c front d back ending, s.toList = c :: (front ++ ':' :: d :: (back ++ ending)) ∧
    firstLetters.contains c = true ∧ (∀ x ∈ front, moduleLetters.contains x = true) ∧
    firstLetters.contains d = true ∧ (∀ x ∈ back, memberLetters.contains x = true) ∧
    (ending = [] ∨ ending = ['\n'])

open Pattern in
/-- The pattern of plugin references. -/
def reference : Pattern :=
  ((((((anchor .start).seq (one firstLetters)).seq (many (one moduleLetters))).seq (one (.single ':'))).seq
    (one firstLetters)).seq (many (one memberLetters))).seq (anchor .lastLine)

theorem read?_referencePattern : Pattern.read? referencePattern = some reference := by cbv

theorem search_reference_iff {s : String} : reference.search s = true ↔ IsReference s := by
  rw [Pattern.search_iff]
  simp only [reference, Pattern.matches_seq_anchor, Pattern.matches_seq_many_one, Pattern.matches_seq_one,
    Pattern.contains_single]
  constructor
  · rintro ⟨before, _, ending, hs, ⟨_, back, rfl, ⟨_, d, rfl, ⟨_, _, rfl, ⟨_, front, rfl,
      ⟨_, c, rfl, ⟨hstart, rfl⟩, hc⟩, hfront⟩, rfl⟩, hd⟩, hback⟩, hending⟩
    obtain rfl : before = [] := by simpa [Anchor.holds] using hstart
    exact ⟨c, front, d, back, ending, by simpa using hs, hc, hfront, hd, hback,
      by simpa [Anchor.holds] using hending⟩
  · rintro ⟨c, front, d, back, ending, hs, hc, hfront, hd, hback, hending⟩
    have hholds : ∀ before, Anchor.lastLine.holds before ending = true := by
      simpa [Anchor.holds] using hending
    exact ⟨[], _, ending, by simpa using hs, ⟨_, back, rfl, ⟨_, d, rfl, ⟨_, ':', rfl, ⟨_, front, rfl,
      ⟨[], c, rfl, ⟨rfl, rfl⟩, hc⟩, hfront⟩, rfl⟩, hd⟩, hback⟩, hholds _⟩

/-! ### Parts of manifests -/

/-- A dictionary. -/
def IsObject (v : Value) : Prop := ∃ es, v = .dict es

/-- A dictionary, or nothing. -/
def IsObjectOrNull (v : Value) : Prop := IsObject v ∨ v = .null

/-- A text. -/
def IsText (v : Value) : Prop := ∃ s, v = .text s

/-- The name of an aggregation. -/
def IsAggregation (v : Value) : Prop := ∃ a : Aggregation, v = .text a.name

/-- An aggregation method: aggregations for time and for components. -/
structure IsMethod (v : Value) : Prop where
  object : IsObject v
  time : Under (.text "time") IsAggregation v
  component : Under (.text "component") IsAggregation v
  names : ∀ k ∈ Entries.keys (entriesOf v), k ∈ ([.text "time", .text "component"] : List Key)

/-- A parameter; other entries than these may be anything. -/
structure IsParameter (v : Value) : Prop where
  object : IsObject v
  description : Under (.text "description") IsText v
  unit : Under (.text "unit") IsText v
  method : Under (.text "aggregation-method") IsMethod v

/-- Parameters under any names. -/
structure IsParameters (v : Value) : Prop where
  object : IsObjectOrNull v
  parameters : ∀ e ∈ entriesOf v, IsParameter e.2

/-- Metadata: parameters for the inputs and for the outputs. -/
structure IsMetadata (v : Value) : Prop where
  object : IsObjectOrNull v
  inputs : Under (.text "inputs") IsParameters v
  outputs : Under (.text "outputs") IsParameters v
  names : ∀ k ∈ Entries.keys (entriesOf v), k ∈ ([.text "inputs", .text "outputs"] : List Key)

/-- A mapping table. -/
structure IsMapping (v : Value) : Prop where
  object : IsObjectOrNull v
  names : ∀ e ∈ entriesOf v, IsText e.2

/-- The reference of a plugin. -/
def IsPlugin (v : Value) : Prop := ∃ s, v = .text s ∧ IsReference s

/-- A list of rows. -/
def IsRows (v : Value) : Prop := ∃ rows, v = .list rows ∧ ∀ row ∈ rows, IsObject row

/-- A manifest. The plugin and the rows have to be there. -/
structure IsManifest (v : Value) : Prop where
  object : IsObject v
  required : ∀ k ∈ ([.text "plugin", .text "inputs"] : List Key),
    ∃ w, Entries.get? k (entriesOf v) = some w
  names : ∀ k ∈ Entries.keys (entriesOf v), k ∈
    ([.text "plugin", .text "config", .text "mapping", .text "parameter-metadata", .text "inputs"] : List Key)
  plugin : Under (.text "plugin") IsPlugin v
  config : Under (.text "config") IsObjectOrNull v
  mapping : Under (.text "mapping") IsMapping v
  metadata : Under (.text "parameter-metadata") IsMetadata v
  inputs : Under (.text "inputs") IsRows v

/-! ### The schemas of the parts -/

-- The notation of the schema is a closed value, so the equations of its readers work it out part by part.
attribute [simp] entries texts ofValue? rulesOf? ruleOf? plainRule? typesOf? namesOf? itemsOf? schemasOf?
  namedOf? declaredNames SimpleType.ofName? SimpleType.all SimpleType.name

variable {resolve : String → Value → Findings} {v : Value}

theorem object_iff : ruleFindings resolve (.type [.object]) v = [] ↔ IsObject v := by
  simp [type_iff, SimpleType.accepts_object_iff, IsObject]

theorem objectOrNull_iff : ruleFindings resolve (.type [.object, .null]) v = [] ↔ IsObjectOrNull v := by
  simp [type_iff, SimpleType.accepts_object_iff, SimpleType.accepts_null_iff, IsObjectOrNull, IsObject]

theorem text_iff : ruleFindings resolve (.type [.string]) v = [] ↔ IsText v := by
  simp [type_iff, SimpleType.accepts_string_iff, IsText]

/-- The rules of the metadata. Their references are resolved when a value is checked. -/
def metadataRules : Schema :=
  let parameters : Schema := .rules parametersReference [.reference "#/$defs/parameters"]
  .rules metadataSchema [.type [.object, .null],
    .properties [(.text "inputs", parameters), (.text "outputs", parameters)],
    .additional [.text "inputs", .text "outputs"] .nothing]

theorem ofValue?_metadataSchema : ofValue? metadataSchema = some metadataRules := by
  simp [metadataSchema, metadataRules, objectOrNull, parametersReference, Entries.get?]

theorem metadataRules_iff (hresolve : ∀ w, resolve "#/$defs/parameters" w = [] ↔ IsParameters w) :
    metadataRules.findings resolve v = [] ↔ IsMetadata v := by
  simp only [metadataRules, rules_cons_iff, rules_nil, and_true, objectOrNull_iff, properties_cons_iff,
    properties_nil, reference_iff, hresolve, additional_nothing_iff]
  constructor
  · rintro ⟨hobject, ⟨hinputs, houtputs⟩, hnames⟩
    exact ⟨hobject, hinputs, houtputs, hnames⟩
  · rintro ⟨hobject, hinputs, houtputs, hnames⟩
    exact ⟨hobject, ⟨hinputs, houtputs⟩, hnames⟩

variable (resolve)

theorem describes_object : Describes resolve (ofType "object") IsObject := by
  refine ⟨.rules (ofType "object") [.type [.object]], by simp [ofType], fun v => ?_⟩
  simp only [rules_cons_iff, rules_nil, and_true, object_iff]

theorem describes_text : Describes resolve (ofType "string") IsText := by
  refine ⟨.rules (ofType "string") [.type [.string]], by simp [ofType], fun v => ?_⟩
  simp only [rules_cons_iff, rules_nil, and_true, text_iff]

theorem describes_aggregation : Describes resolve aggregationSchema IsAggregation := by
  refine ⟨.rules aggregationSchema [.enum (Aggregation.all.map fun a => .text a.name)],
    by simp [aggregationSchema, Aggregation.all, Aggregation.name], fun v => ?_⟩
  simp only [rules_cons_iff, rules_nil, and_true, enum_iff]
  constructor
  · rintro ⟨w, hw, hsame⟩
    obtain ⟨a, -, rfl⟩ := List.mem_map.mp hw
    exact ⟨a, Value.same_text_iff.mp hsame⟩
  · rintro ⟨a, rfl⟩
    have ha : a ∈ Aggregation.all := by cases a <;> decide
    exact ⟨_, List.mem_map_of_mem ha, Value.same_text_iff.mpr rfl⟩

theorem describes_method : Describes resolve methodSchema IsMethod := by
  obtain ⟨aggregation, hread, haggregation⟩ := describes_aggregation resolve
  refine ⟨.rules methodSchema [.type [.object],
      .properties [(.text "time", aggregation), (.text "component", aggregation)],
      .additional [.text "time", .text "component"] .nothing],
    by simp [methodSchema, hread, Entries.get?], fun v => ?_⟩
  simp only [rules_cons_iff, rules_nil, and_true, object_iff, properties_cons_iff, properties_nil,
    haggregation, additional_nothing_iff]
  constructor
  · rintro ⟨hobject, ⟨htime, hcomponent⟩, hnames⟩
    exact ⟨hobject, htime, hcomponent, hnames⟩
  · rintro ⟨hobject, htime, hcomponent, hnames⟩
    exact ⟨hobject, ⟨htime, hcomponent⟩, hnames⟩

theorem describes_parameter : Describes resolve parameterSchema IsParameter := by
  obtain ⟨text, hreadText, htext⟩ := describes_text resolve
  obtain ⟨method, hreadMethod, hmethod⟩ := describes_method resolve
  refine ⟨.rules parameterSchema [.type [.object], .properties [(.text "description", text),
      (.text "unit", text), (.text "aggregation-method", method)]],
    by simp [parameterSchema, hreadText, hreadMethod], fun v => ?_⟩
  simp only [rules_cons_iff, rules_nil, and_true, object_iff, properties_cons_iff, properties_nil, htext,
    hmethod]
  constructor
  · rintro ⟨hobject, hdescription, hunit, hmethod⟩
    exact ⟨hobject, hdescription, hunit, hmethod⟩
  · rintro ⟨hobject, hdescription, hunit, hmethod⟩
    exact ⟨hobject, hdescription, hunit, hmethod⟩

theorem describes_parameters : Describes resolve parametersSchema IsParameters := by
  obtain ⟨parameter, hread, hparameter⟩ := describes_parameter resolve
  refine ⟨.rules parametersSchema [.type [.object, .null], .additional [] parameter],
    by simp [parametersSchema, objectOrNull, hread, Entries.get?], fun v => ?_⟩
  simp only [rules_cons_iff, rules_nil, and_true, objectOrNull_iff, additional_iff, hparameter]
  constructor
  · rintro ⟨hobject, hparameters⟩
    exact ⟨hobject, fun e he => hparameters e he List.not_mem_nil⟩
  · rintro ⟨hobject, hparameters⟩
    exact ⟨hobject, fun e he _ => hparameters e he⟩

theorem describes_plugin : Describes resolve pluginSchema IsPlugin := by
  refine ⟨.rules pluginSchema [.type [.string], .pattern referencePattern reference],
    by simp [pluginSchema, read?_referencePattern], fun v => ?_⟩
  simp only [rules_cons_iff, rules_nil, and_true, text_iff, pattern_iff, search_reference_iff]
  constructor
  · rintro ⟨⟨s, rfl⟩, hs⟩
    exact ⟨s, rfl, hs s rfl⟩
  · rintro ⟨s, rfl, hs⟩
    refine ⟨⟨s, rfl⟩, ?_⟩
    rintro t ⟨⟩
    exact hs

theorem describes_config : Describes resolve configSchema IsObjectOrNull := by
  refine ⟨.rules configSchema [.type [.object, .null]], by simp [configSchema, objectOrNull], fun v => ?_⟩
  simp only [rules_cons_iff, rules_nil, and_true, objectOrNull_iff]

theorem describes_mapping : Describes resolve mappingSchema IsMapping := by
  obtain ⟨text, hread, htext⟩ := describes_text resolve
  refine ⟨.rules mappingSchema [.type [.object, .null], .additional [] text],
    by simp [mappingSchema, objectOrNull, hread, Entries.get?], fun v => ?_⟩
  simp only [rules_cons_iff, rules_nil, and_true, objectOrNull_iff, additional_iff, htext]
  constructor
  · rintro ⟨hobject, hnames⟩
    exact ⟨hobject, fun e he => hnames e he List.not_mem_nil⟩
  · rintro ⟨hobject, hnames⟩
    exact ⟨hobject, fun e he _ => hnames e he⟩

theorem describes_inputs : Describes resolve inputsSchema IsRows := by
  obtain ⟨row, hread, hrow⟩ := describes_object resolve
  refine ⟨.rules inputsSchema [.type [.array], .items row], by simp [inputsSchema, hread], fun v => ?_⟩
  simp only [rules_cons_iff, rules_nil, and_true, type_iff, List.mem_singleton, exists_eq_left,
    SimpleType.accepts_array_iff]
  constructor
  · rintro ⟨⟨rows, rfl⟩, hrows⟩
    exact ⟨rows, rfl, fun w hw => (hrow w).mp (items_iff.mp hrows w hw)⟩
  · rintro ⟨rows, rfl, hrows⟩
    exact ⟨⟨rows, rfl⟩, items_iff.mpr fun w hw => (hrow w).mpr (hrows w hw)⟩

/-! ### The whole schema -/

theorem findings_schema_iff : schema.findings v = [] ↔ IsManifest v := by
  have hpos : ∃ depth, schema.referenceDepth v = depth + 1 := SchemaDocument.referenceDepth_pos
  obtain ⟨depth, hdepth⟩ := hpos
  obtain ⟨parameters, hreadParameters, hparameters⟩ := describes_parameters (schema.resolver depth)
  obtain ⟨plugin, hreadPlugin, hplugin⟩ := describes_plugin (schema.resolver (depth + 1))
  obtain ⟨config, hreadConfig, hconfig⟩ := describes_config (schema.resolver (depth + 1))
  obtain ⟨mapping, hreadMapping, hmapping⟩ := describes_mapping (schema.resolver (depth + 1))
  obtain ⟨inputs, hreadInputs, hinputs⟩ := describes_inputs (schema.resolver (depth + 1))
  have hschema : schema = ⟨.rules (.dict schemaEntries) [.type [.object],
      .required [.text "plugin", .text "inputs"],
      .additional [.text "plugin", .text "config", .text "mapping", .text "parameter-metadata",
        .text "inputs"] .nothing,
      .properties [(.text "plugin", plugin), (.text "config", config), (.text "mapping", mapping),
        (.text "parameter-metadata", metadataRules), (.text "inputs", inputs)]],
      [(.text "parameters", parameters)]⟩ := by
    simp [schema, SchemaDocument.ofEntries?, schemaEntries, partSchemas, Entries.get?, hreadParameters,
      hreadPlugin, hreadConfig, hreadMapping, hreadInputs, ofValue?_metadataSchema]
  have hdefinition : Entries.get? (.text "parameters") schema.definitions = some parameters := by
    rw [hschema]
    rfl
  have hresolve : ∀ w, schema.resolver (depth + 1) "#/$defs/parameters" w = [] ↔ IsParameters w := by
    intro w
    have hreference : "#/$defs/parameters" = SchemaDocument.definitionMark ++ "parameters" := rfl
    rw [hreference, SchemaDocument.resolver_definition hdefinition, hparameters]
  have hroot := congrArg SchemaDocument.root hschema
  rw [SchemaDocument.findings, hdepth, hroot]
  simp only [rules_cons_iff, rules_nil, and_true, object_iff, properties_cons_iff, properties_nil, hplugin,
    hconfig, hmapping, metadataRules_iff hresolve, hinputs, additional_nothing_iff]
  constructor
  · rintro ⟨⟨es, rfl⟩, hrequired, hnames, hplugin, hconfig, hmapping, hmetadata, hinputs⟩
    exact ⟨⟨es, rfl⟩, required_iff.mp hrequired, hnames, hplugin, hconfig, hmapping, hmetadata, hinputs⟩
  · rintro ⟨⟨es, rfl⟩, hrequired, hnames, hplugin, hconfig, hmapping, hmetadata, hinputs⟩
    exact ⟨⟨es, rfl⟩, required_iff.mpr hrequired, hnames, hplugin, hconfig, hmapping, hmetadata, hinputs⟩

/-- **The manifest schema accepts manifests** and nothing else. -/
theorem issues_schema_iff : schema.issues v = .ok [] ↔ IsManifest v := by
  rw [SchemaDocument.issues_eq_nil_iff, findings_schema_iff]

end RowPipeline.Manifest
