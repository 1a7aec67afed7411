import RowPipeline.Proofs.Fields
import RowPipeline.Proofs.Mapping.Operands

/-!
# Configs under a table

A table changes a config in depth, and mapping fails at a text in it or not at all (`mapValue_error`). It
fails at a text only if that is marked and no internal name (`Balks`): a closed one is worked out although its
value is not used, and the others are read as tokens (`mapText_eq_error_iff`). A config that is mapped has had
all its texts mapped (`mapValue_ok`), and the consumed names leave the table (`mapRecord_cases`).
-/

namespace RowPipeline

open Text Expression

namespace Value

/-- What holds of a list if it holds of its items, and of a dictionary if it holds of its values, holds of
every value. -/
@[elab_as_elim]
theorem nested_induction {motive : Value → Prop} (scalar : ∀ s, motive (.scalar s))
    (list : ∀ vs, (∀ v ∈ vs, motive v) → motive (.list vs))
    (dict : ∀ es, (∀ k v, (k, v) ∈ es → motive v) → motive (.dict es)) : ∀ v, motive v
  | .scalar s => scalar s
  | .list vs => list vs fun v _ => nested_induction scalar list dict v
  | .dict es => dict es fun k v h =>
    have : sizeOf v < sizeOf es := by
      have hlt := List.sizeOf_lt_of_mem h
      simp only [Prod.mk.sizeOf_spec] at hlt
      omega
    nested_induction scalar list dict v

/-- A text stands in a value, at any depth. -/
inductive HoldsText (s : String) : Value → Prop
  | self : HoldsText s (.text s)
  | item {v : Value} {vs : List Value} : v ∈ vs → HoldsText s v → HoldsText s (.list vs)
  | entry {k : Key} {v : Value} {es : List (Key × Value)} :
    (k, v) ∈ es → HoldsText s v → HoldsText s (.dict es)

end Value

namespace Mapping

variable {m : Mapping} {n e s : String} {v w : Value} {vs ws : List Value} {es fs : List (Key × Value)}
  {used : List String} {failure : Failure}

/-! ### Texts -/

/-- The name that a text refers to: the first one in it, and the text itself if there is none. -/
def subject (s : String) : String := (variableName? s).getD s

theorem mapText_of_some (h : m.get? s = some e) : m.mapText s = .ok (.text e, [s]) := by
  rw [mapText]
  simp only [h]
  rfl

theorem mapText_of_unmarked (h : m.get? s = none) (hm : hasMarker s = false) :
    m.mapText s = .ok (.text s, []) := by
  rw [mapText]
  simp only [h, hm]
  rfl

/-- A closed text is worked out, and stays as it is. -/
theorem mapText_of_closed (h : m.get? s = none) (hm : hasMarker s) (hc : isClosed s) :
    m.mapText s = (evaluateClosed s).map fun _ => (.text s, []) := by
  have hv : extractVariable (.text s) = (evaluateClosed s).map Value.ofNumber? := by
    rw [extractVariable, if_pos hc]
    rfl
  rw [mapText]
  simp only [h, hm, hv]
  cases evaluateClosed s with
  | error failure => rfl
  | ok a => rcases a with _ | (b | b) <;> rfl

/-- Another marked text has the name it refers to renamed, if the table has it. -/
theorem mapText_of_open (h : m.get? s = none) (hm : hasMarker s) (hc : isClosed s = false) :
    m.mapText s = match m.get? (subject s) with
      | none => .ok (.text s, [])
      | some e => (renameOperand s (subject s) e).map fun
        | some s' => (.text s', [subject s])
        | none => (.text s, []) := by
  have hv : extractVariable (.text s) = .ok (.text (subject s)) := by
    rw [extractVariable, hc]
    rfl
  rw [mapText]
  simp only [h, hm, hv]
  cases hx : m.get? (subject s) with
  | none => simp [hx, bind, Except.bind, pure, Except.pure]
  | some e =>
    cases hr : renameOperand s (subject s) e with
    | error failure => simp [hx, hr, bind, Except.bind, Except.map]
    | ok renamed => cases renamed <;> simp [hx, hr, bind, Except.bind, Except.map, pure, Except.pure]

/-! ### Texts that fail -/

theorem tokens?_eq_error_iff {cs : List Char} : tokens? cs = .error failure ↔
    failure = .numeralTooLong ∧ tokenize cs = .error .numeralTooLong := by
  cases ht : tokenize cs with
  | ok ts => simp [tokens?, ht]
  | error failure' =>
    rcases Cursor.tokens_error _ ht with rfl | ⟨ch, p, rfl⟩
    · simp [tokens?, ht, eq_comm]
    · simp [tokens?, ht]

/-- A new name is looked at only if it may have to stand without quotes. -/
theorem operandText_eq_error_iff {quote : Option Char} : operandText e quote = .error failure ↔
    quote = none ∧ failure = .numeralTooLong ∧ tokenize e.toList = .error .numeralTooLong := by
  have hbare : isBareName e = .error failure ↔
      failure = .numeralTooLong ∧ tokenize e.toList = .error .numeralTooLong := by
    rw [← tokens?_eq_error_iff, isBareName]
    cases tokens? e.toList with
    | error failure' => simp [bind, Except.bind]
    | ok ts? => rcases ts? with _ | ⟨_ | ⟨t, _ | ⟨u, _ | ⟨w, ts⟩⟩⟩⟩ <;>
        simp [bind, Except.bind, pure, Except.pure]
  cases quote with
  | some q => simp [operandText, pure, Except.pure]
  | none =>
    rw [← hbare, operandText]
    cases isBareName e with
    | error failure' => simp [bind, Except.bind]
    | ok bare => cases bare <;> simp [bind, Except.bind, pure, Except.pure]

/-- A numeral of too many digits keeps an operand from being renamed: it stands in the expression, or in the
new name of an operand without quotes. -/
@[mk_iff]
inductive TooLong (s n e : String) : Prop
  | inExpression : tokenize (behindMarker s) = .error .numeralTooLong → TooLong s n e
  | inName {ts : List Token} {p : Nat} : tokenize (behindMarker s) = .ok ts →
    findOperand n (behindMarker s) ts = some (p, none) → tokenize e.toList = .error .numeralTooLong →
      TooLong s n e

theorem renameOperand_eq_error_iff : renameOperand s n e = .error failure ↔
    failure = .numeralTooLong ∧ TooLong s n e := by
  have hbehind : (s.toList.dropWhile (· != marker)).drop 1 = behindMarker s := rfl
  rw [tooLong_iff, renameOperand]
  simp only [hbehind]
  cases ht : tokenize (behindMarker s) with
  | error failure' =>
    rcases Cursor.tokens_error _ ht with rfl | ⟨ch, p, rfl⟩
    · simp [tokens?, ht, bind, Except.bind, eq_comm]
    · simp [tokens?, ht, bind, Except.bind, pure, Except.pure]
  | ok ts =>
    have htokens : tokens? (behindMarker s) = .ok (some ts) := by rw [tokens?, ht]
    rcases hf : findOperand n (behindMarker s) ts with _ | ⟨p, quote⟩
    · simp [htokens, hf, bind, Except.bind, pure, Except.pure]
    · cases ho : operandText e quote with
      | error failure' =>
        obtain ⟨rfl, rfl, hlong⟩ := operandText_eq_error_iff.mp ho
        simp [htokens, hf, ho, hlong, bind, Except.bind, eq_comm]
      | ok run =>
        have hshort : quote = none → tokenize e.toList ≠ .error .numeralTooLong := by
          intro hq hlong
          rw [operandText_eq_error_iff.mpr ⟨hq, rfl, hlong⟩] at ho
          cases ho
        simpa [htokens, hf, ho, bind, Except.bind, pure, Except.pure] using fun _ => hshort

/-- What keeps a table from mapping a text: it is no internal name but marked, and it is a closed text
without value, or too long to rename the name in it that the table has. -/
def Balks (m : Mapping) (s : String) (failure : Failure) : Prop :=
  m.get? s = none ∧ hasMarker s ∧ if isClosed s then evaluateClosed s = .error failure
    else failure = .numeralTooLong ∧ ∃ e, m.get? (subject s) = some e ∧ TooLong s (subject s) e

/-- **Where mapping a text fails.** -/
theorem mapText_eq_error_iff : m.mapText s = .error failure ↔ m.Balks s failure := by
  rw [Balks]
  cases hs : m.get? s with
  | some e => simp [mapText_of_some hs]
  | none =>
    cases hm : hasMarker s with
    | false => simp [mapText_of_unmarked hs hm]
    | true =>
      cases hc : isClosed s with
      | true => simp [mapText_of_closed hs hm hc, map_eq_error_iff]
      | false =>
        cases hx : m.get? (subject s) with
        | none => simp [mapText_of_open hs hm hc, hx]
        | some e =>
          simp [mapText_of_open hs hm hc, hx, map_eq_error_iff, renameOperand_eq_error_iff]

/-! ### Lists and dictionaries -/

theorem mapItems_ok : ∀ {vs ws : List Value} {used : List String}, m.mapItems vs = .ok (ws, used) →
    ∀ v ∈ vs, ∃ w us, m.mapValue v = .ok (w, us)
  | [], ws, used, h => by simp
  | v :: vs, ws, used, h => by
    rw [mapItems] at h
    obtain ⟨⟨w, us⟩, hv, h⟩ := bind_eq_ok_iff.mp h
    obtain ⟨_, hrest, -⟩ := bind_eq_ok_iff.mp h
    exact List.forall_mem_cons.mpr ⟨⟨w, us, hv⟩, mapItems_ok hrest⟩

theorem mapEntries_ok : ∀ {es fs : List (Key × Value)} {used : List String},
    m.mapEntries es = .ok (fs, used) → ∀ k v, (k, v) ∈ es → ∃ w us, m.mapValue v = .ok (w, us)
  | [], fs, used, h => by simp
  | (k, v) :: es, fs, used, h => by
    rw [mapEntries] at h
    obtain ⟨⟨w, us⟩, hv, h⟩ := bind_eq_ok_iff.mp h
    obtain ⟨_, hrest, -⟩ := bind_eq_ok_iff.mp h
    intro k' v' he
    rcases List.mem_cons.mp he with he | he
    · obtain ⟨-, rfl⟩ := Prod.mk.inj he
      exact ⟨w, us, hv⟩
    · exact mapEntries_ok hrest k' v' he

theorem mapItems_error : ∀ {vs : List Value}, m.mapItems vs = .error failure →
    ∃ v ∈ vs, m.mapValue v = .error failure
  | [], h => by
    rw [mapItems] at h
    cases h
  | v :: vs, h => by
    rw [mapItems] at h
    rcases bind_eq_error_iff.mp h with hv | ⟨_, -, h⟩
    · exact ⟨v, by simp, hv⟩
    rcases bind_eq_error_iff.mp h with hrest | ⟨_, -, h⟩
    · obtain ⟨v', hv', hfail⟩ := mapItems_error hrest
      exact ⟨v', List.mem_cons_of_mem _ hv', hfail⟩
    · cases h

theorem mapEntries_error : ∀ {es : List (Key × Value)}, m.mapEntries es = .error failure →
    ∃ k v, (k, v) ∈ es ∧ m.mapValue v = .error failure
  | [], h => by
    rw [mapEntries] at h
    cases h
  | (k, v) :: es, h => by
    rw [mapEntries] at h
    rcases bind_eq_error_iff.mp h with hv | ⟨_, -, h⟩
    · exact ⟨k, v, by simp, hv⟩
    rcases bind_eq_error_iff.mp h with hrest | ⟨_, -, h⟩
    · obtain ⟨k', v', he, hfail⟩ := mapEntries_error hrest
      exact ⟨k', v', List.mem_cons_of_mem _ he, hfail⟩
    · cases h

/-! ### Values -/

/-- Where a value is mapped, each text in it is. -/
theorem mapValue_ok (h : m.mapValue v = .ok (w, used)) (hs : v.HoldsText s) :
    ∃ mapped, m.mapText s = .ok mapped := by
  induction hs generalizing w used with
  | self =>
    rw [mapValue] at h
    exact ⟨_, h⟩
  | item hv _ ih =>
    rw [mapValue] at h
    obtain ⟨_, hvs, -⟩ := bind_eq_ok_iff.mp h
    obtain ⟨w', us, hw⟩ := mapItems_ok hvs _ hv
    exact ih hw
  | entry he _ ih =>
    rw [mapValue] at h
    obtain ⟨_, hes, -⟩ := bind_eq_ok_iff.mp h
    obtain ⟨w', us, hw⟩ := mapEntries_ok hes _ _ he
    exact ih hw

/-- Mapping a value fails at a text in it. -/
theorem mapValue_error (h : m.mapValue v = .error failure) :
    ∃ s, v.HoldsText s ∧ m.mapText s = .error failure := by
  induction v using Value.nested_induction with
  | scalar s =>
    cases s with
    | text s =>
      rw [mapValue] at h
      exact ⟨s, .self, h⟩
    | _ => cases h
  | list vs ih =>
    rw [mapValue] at h
    rcases bind_eq_error_iff.mp h with hvs | ⟨_, -, h⟩
    · obtain ⟨v, hv, hfail⟩ := mapItems_error hvs
      obtain ⟨s, hs, hfail⟩ := ih v hv hfail
      exact ⟨s, .item hv hs, hfail⟩
    · cases h
  | dict es ih =>
    rw [mapValue] at h
    rcases bind_eq_error_iff.mp h with hes | ⟨_, -, h⟩
    · obtain ⟨k, v, he, hfail⟩ := mapEntries_error hes
      obtain ⟨s, hs, hfail⟩ := ih k v he hfail
      exact ⟨s, .entry he hs, hfail⟩
    · cases h

/-! ### Config records -/

variable {config mapped : Record} {left : Mapping}

theorem mapValue_ofRecord {used : List String} (h : m.mapEntries config.entries = .ok (fs, used)) :
    m.mapValue (.ofRecord config) = .ok (.dict (Entries.putAll [] fs), used) := by
  rw [Value.ofRecord, mapValue, h]
  rfl

/-- **What a config leaves of a table**: a table without entries changes nothing, and otherwise the consumed
names are gone. -/
theorem mapRecord_cases (h : m.mapRecord config = .ok (mapped, left)) :
    m.isEmpty ∧ mapped = config ∧ left = m ∨
      m.isEmpty = false ∧ ∃ fs used, m.mapEntries config.entries = .ok (fs, used) ∧
        mapped = .ofList fs ∧ left = m.eraseAll used := by
  rw [mapRecord] at h
  split at h
  · rename_i hempty
    obtain ⟨rfl, rfl⟩ := Prod.mk.inj (Except.ok.inj h)
    exact Or.inl ⟨hempty, rfl, rfl⟩
  · rename_i hempty
    obtain ⟨⟨fs, used⟩, hes, h⟩ := bind_eq_ok_iff.mp h
    obtain ⟨rfl, rfl⟩ := Prod.mk.inj (Except.ok.inj h)
    exact Or.inr ⟨by simpa using hempty, fs, used, hes, rfl, rfl⟩

theorem exists_left (h : m.mapRecord config = .ok (mapped, left)) : ∃ used, left = m.eraseAll used := by
  rcases mapRecord_cases h with ⟨-, -, rfl⟩ | ⟨-, _, used, -, -, rfl⟩
  · exact ⟨[], (Fields.eraseAll_nil left).symm⟩
  · exact ⟨used, rfl⟩

/-- **Where mapping a config fails**: a table that is not empty balks at a text in it. -/
theorem mapRecord_error (h : m.mapRecord config = .error failure) :
    m.isEmpty = false ∧ ∃ s, (Value.ofRecord config).HoldsText s ∧ m.Balks s failure := by
  rw [mapRecord] at h
  split at h
  · cases h
  · rename_i hempty
    refine ⟨by simpa using hempty, ?_⟩
    rcases bind_eq_error_iff.mp h with hes | ⟨_, -, h⟩
    · have hvalue : m.mapValue (.ofRecord config) = .error failure := by
        rw [Value.ofRecord, mapValue, hes]
        rfl
      obtain ⟨s, hs, hfail⟩ := mapValue_error hvalue
      exact ⟨s, hs, mapText_eq_error_iff.mp hfail⟩
    · cases h

theorem mapRecord_of_balks {s : String} (hm : m.isEmpty = false) (hs : (Value.ofRecord config).HoldsText s)
    (h : m.Balks s failure) : ∃ failure', m.mapRecord config = .error failure' := by
  cases hr : m.mapRecord config with
  | error failure' => exact ⟨failure', rfl⟩
  | ok mapped =>
    rcases mapRecord_cases hr with ⟨hempty, -, -⟩ | ⟨-, _, _, hes, -, -⟩
    · rw [hm] at hempty
      cases hempty
    · obtain ⟨r, hr⟩ := mapValue_ok (mapValue_ofRecord hes) hs
      rw [mapText_eq_error_iff.mpr h] at hr
      cases hr

end Mapping

end RowPipeline
