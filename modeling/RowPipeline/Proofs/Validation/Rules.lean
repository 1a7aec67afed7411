import RowPipeline.Validation.Validator
import RowPipeline.Proofs.Outcome

/-!
# What the rules of schemas ask for

A value is valid under a rule iff the rule has no findings. Each lemma here says for one rule what that is in
terms of the value: `type` asks for one of the types, `required` for the names of an object, `properties` and
`additional` for valid values under the known names of an object and under the others, `items` for valid items,
`enum` for one of the values, `pattern` for a match.

A document without findings has no issues, and the other way round (`SchemaDocument.issues_eq_nil_iff`), so a
checker of a schema accepts exactly the values without findings, as they are (`Checker.check_schema_iff`).
-/

namespace RowPipeline

/-! ### Findings -/

namespace Findings

variable {fs : Findings}

@[simp] theorem one_ne_nil (code : String) (message : Except Failure String) : one code message ≠ [] :=
  List.cons_ne_nil _ _

@[simp] theorem about_ne_nil (code : String) (v : Value) (phrase : String) : about code v phrase ≠ [] :=
  one_ne_nil _ _

/-- A rule that asks for some alternative has its one finding unless there is one. -/
theorem unless_any_iff {α : Type} {xs : List α} {p : α → Bool} {code : String}
    {message : Except Failure String} :
    (if xs.any p then [] else one code message) = [] ↔ ∃ x ∈ xs, p x = true := by
  rw [← List.any_eq_true]
  split
  · next h => simp [h]
  · next h => simp [h]

@[simp] theorem below_eq_nil_iff {part : PathPart} : fs.below part = [] ↔ fs = [] :=
  List.map_eq_nil_iff

end Findings

/-! ### Types -/

namespace SimpleType

variable {v : Value}

theorem accepts_object_iff : object.accepts v = true ↔ ∃ es, v = .dict es := by
  cases v with
  | scalar s => simp [accepts]
  | list items => simp [accepts]
  | dict es => simp [accepts]

theorem accepts_array_iff : array.accepts v = true ↔ ∃ items, v = .list items := by
  cases v with
  | scalar s => simp [accepts]
  | list items => simp [accepts]
  | dict es => simp [accepts]

theorem accepts_string_iff : string.accepts v = true ↔ ∃ s, v = .text s := by
  cases v with
  | scalar s => cases s <;> simp [accepts]
  | list items => simp [accepts]
  | dict es => simp [accepts]

theorem accepts_null_iff : null.accepts v = true ↔ v = .null := by
  cases v with
  | scalar s => cases s <;> simp [accepts, Value.isNull]
  | list items => simp [accepts, Value.isNull]
  | dict es => simp [accepts, Value.isNull]

end SimpleType

/-- Only a text itself is the same as the text. -/
theorem Value.same_text_iff {v : Value} {s : String} : v.same (.text s) = true ↔ v = .text s := by
  cases v with
  | scalar a => cases a <;> simp [same, quantity?]
  | list items => simp [same]
  | dict es => simp [same]

namespace Schema

variable {resolve : String → Value → Findings} {v : Value}

@[simp] theorem nothing_findings_ne_nil : Schema.nothing.findings resolve v ≠ [] := Findings.one_ne_nil _ _

theorem eq_nothing_of_isNothing {s : Schema} (h : s.isNothing = true) : s = nothing := by
  cases s with
  | nothing => rfl
  | anything => cases h
  | rules source rs => cases h

variable {source : Value} {r : Rule} {rs : List Rule}

@[simp] theorem rules_nil : (rules source []).findings resolve v = [] := rfl

/-- A value is valid under rules iff it is valid under the first of them and under the others. -/
theorem rules_cons_iff : (rules source (r :: rs)).findings resolve v = [] ↔
    ruleFindings resolve r v = [] ∧ (rules source rs).findings resolve v = [] :=
  List.append_eq_nil_iff

/-! ### Single values -/

theorem type_iff {types : List SimpleType} :
    ruleFindings resolve (.type types) v = [] ↔ ∃ t ∈ types, t.accepts v = true :=
  Findings.unless_any_iff

theorem enum_iff {values : List Value} :
    ruleFindings resolve (.enum values) v = [] ↔ ∃ w ∈ values, v.same w = true :=
  Findings.unless_any_iff

theorem pattern_iff {source : String} {p : Text.Pattern} :
    ruleFindings resolve (.pattern source p) v = [] ↔ ∀ s, v = .text s → p.search s = true := by
  change patternFindings source p v = [] ↔ _
  unfold patternFindings
  split
  · next s =>
    split
    · next h => simp [h]
    · next h => simp [h]
  · next h => exact ⟨fun _ s hs => absurd hs (h s), fun _ => rfl⟩

theorem reference_iff {target : String} :
    ruleFindings resolve (.reference target) v = [] ↔ resolve target v = [] :=
  Iff.rfl

/-! ### Objects and arrays -/

/-- The value under a name, if an object has one, is in `P`. -/
def Under (k : Key) (P : Value → Prop) (v : Value) : Prop :=
  ∀ w, Entries.get? k (entriesOf v) = some w → P w

theorem required_iff {names : List Key} {es : List (Key × Value)} :
    ruleFindings resolve (.required names) (.dict es) = [] ↔
      ∀ k ∈ names, ∃ w, Entries.get? k es = some w := by
  rw [ruleFindings, missing, List.flatMap_eq_nil_iff]
  constructor
  · intro h k hk
    cases hget : Entries.get? k es with
    | some w => exact ⟨w, rfl⟩
    | none =>
      have hmem : k ∈ names.filter fun k => (Entries.get? k es).isNone :=
        List.mem_filter.mpr ⟨hk, by rw [hget]; rfl⟩
      exact absurd (h k hmem) (Findings.one_ne_nil _ _)
  · intro h k hk
    obtain ⟨hk, hnone⟩ := List.mem_filter.mp hk
    obtain ⟨w, hw⟩ := h k hk
    rw [hw] at hnone
    cases hnone

@[simp] theorem properties_nil : ruleFindings resolve (.properties []) v = [] := rfl

theorem properties_cons_iff {k : Key} {s : Schema} {schemas : List (Key × Schema)} :
    ruleFindings resolve (.properties ((k, s) :: schemas)) v = [] ↔
      Under k (fun w => s.findings resolve w = []) v ∧ ruleFindings resolve (.properties schemas) v = [] := by
  refine List.append_eq_nil_iff.trans (and_congr_left fun _ => ?_)
  unfold Under
  cases Entries.get? k (entriesOf v) with
  | none => simp
  | some w =>
    by_cases hs : s.isNothing = true
    · simp [hs]
    · simp [hs]

theorem unexpected_eq_nil_iff {names : List Key} : unexpected names = [] ↔ names = [] := by
  unfold unexpected
  cases names with
  | nil => simp
  | cons k names => simp

theorem additional_iff {known : List Key} {s : Schema} :
    ruleFindings resolve (.additional known s) v = [] ↔
      ∀ e ∈ entriesOf v, e.1 ∉ known → s.findings resolve e.2 = [] := by
  rw [ruleFindings]
  by_cases hs : s.isNothing = true
  · obtain rfl := eq_nothing_of_isNothing hs
    simp [isNothing, unexpected_eq_nil_iff]
  · simp [hs, List.flatMap_eq_nil_iff]

/-- Where no other names are allowed, the names of an object are among the known ones. -/
theorem additional_nothing_iff {known : List Key} :
    ruleFindings resolve (.additional known .nothing) v = [] ↔
      ∀ k ∈ Entries.keys (entriesOf v), k ∈ known := by
  rw [additional_iff]
  constructor
  · intro h k hk
    obtain ⟨e, he, rfl⟩ := List.mem_map.mp hk
    by_contra hnot
    exact nothing_findings_ne_nil (h e he hnot)
  · intro h e he hnot
    exact absurd (h e.1 (List.mem_map_of_mem he)) hnot

theorem surplus_eq_nil_iff {vs : List Value} : surplus vs = [] ↔ vs = [] := by
  cases vs with
  | nil => simp [surplus]
  | cons v vs => simp [surplus]

theorem items_iff {s : Schema} {vs : List Value} :
    ruleFindings resolve (.items s) (.list vs) = [] ↔ ∀ w ∈ vs, s.findings resolve w = [] := by
  rw [ruleFindings]
  by_cases hs : s.isNothing = true
  · obtain rfl := eq_nothing_of_isNothing hs
    simp only [isNothing, if_true, surplus_eq_nil_iff, nothing_findings_ne_nil, imp_false]
    exact List.eq_nil_iff_forall_not_mem
  · simp only [hs, Bool.false_eq_true, if_false, List.flatten_eq_nil_iff, List.mem_map]
    constructor
    · intro h w hw
      obtain ⟨i, hi, rfl⟩ := List.getElem_of_mem hw
      have hmem : (vs[i], i) ∈ vs.zipIdx := by
        rw [List.mk_mem_zipIdx_iff_getElem?]
        exact List.getElem?_eq_getElem hi
      exact Findings.below_eq_nil_iff.mp (h _ ⟨_, hmem, rfl⟩)
    · rintro h _ ⟨⟨w, i⟩, hmem, rfl⟩
      have hw : w ∈ vs := List.mem_of_getElem? (List.mk_mem_zipIdx_iff_getElem?.mp hmem)
      exact Findings.below_eq_nil_iff.mpr (h w hw)

/-! ### Notations -/

/-- A value is the notation of a schema under which the values in `P` are valid and no others. -/
def Describes (resolve : String → Value → Findings) (written : Value) (P : Value → Prop) : Prop :=
  ∃ s, ofValue? written = some s ∧ ∀ v, s.findings resolve v = [] ↔ P v

end Schema

/-! ### Documents -/

namespace SchemaDocument

variable {doc : SchemaDocument} {v : Value}

theorem lookup?_definition {name : String} :
    doc.lookup? (definitionMark ++ name) = Entries.get? (.text name) doc.definitions := by
  have hmark : (definitionMark ++ name).startsWith definitionMark = true := by
    rw [String.startsWith_string_iff, String.toList_append]
    exact List.prefix_append _ _
  have hname : (definitionMark ++ name).toList.drop definitionMark.length = name.toList := by
    rw [String.toList_append, ← String.length_toList, List.drop_left]
  rw [lookup?, hmark, hname, String.ofList_toList, if_pos rfl]

/-- A reference asks for what the definition that it names asks for. -/
theorem resolver_definition {depth : Nat} {name : String} {s : Schema}
    (h : Entries.get? (.text name) doc.definitions = some s) :
    doc.resolver (depth + 1) (definitionMark ++ name) v = s.findings (doc.resolver depth) v := by
  rw [resolver, lookup?_definition, h]

theorem referenceDepth_pos : ∃ depth, doc.referenceDepth v = depth + 1 :=
  Nat.exists_eq_succ_of_ne_zero (Nat.mul_ne_zero (Nat.succ_ne_zero _) (Nat.succ_ne_zero _))

/-- Issues are the findings in another order and another form, so neither come without the other. -/
theorem issues_eq_nil_iff : doc.issues v = .ok [] ↔ doc.findings v = [] := by
  constructor
  · intro h
    obtain ⟨found, hfound, hissues⟩ := bind_eq_ok_iff.mp h
    have hlength := length_of_mapM_ok hissues
    rw [List.length_nil, List.length_mergeSort, length_of_mapM_ok hfound] at hlength
    exact List.eq_nil_of_length_eq_zero hlength.symm
  · intro h
    have hcollect : (doc.findings v).collect = .ok [] := by
      rw [h]
      rfl
    refine bind_eq_ok_iff.mpr ⟨[], hcollect, ?_⟩
    rw [List.mergeSort_nil]
    rfl

end SchemaDocument

/-- A checker of a schema accepts the values without issues, and hands them back as they are. -/
theorem Checker.check_schema_iff {doc : SchemaDocument} {v w : Value} {index : Option Int} {kind : ErrorKind} :
    (Checker.schema doc).check v index kind = .ok w ↔ doc.issues v = .ok [] ∧ w = v := by
  constructor
  · intro h
    obtain ⟨answer, hread, h⟩ := bind_eq_ok_iff.mp h
    obtain ⟨issues, hissues, hread⟩ := bind_eq_ok_iff.mp hread
    cases issues with
    | nil =>
      obtain rfl := Except.ok.inj hread
      exact ⟨hissues, (Except.ok.inj h).symm⟩
    | cons issue issues =>
      obtain rfl := Except.ok.inj hread
      cases h
  · rintro ⟨hissues, rfl⟩
    have hread : (Checker.schema doc).read w = .ok (.ok w) := bind_eq_ok_iff.mpr ⟨[], hissues, rfl⟩
    exact bind_eq_ok_iff.mpr ⟨.ok w, hread, rfl⟩

end RowPipeline
