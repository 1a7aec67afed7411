import RowPipeline.Proofs.Mapping.Configs
import RowPipeline.Proofs.Expression.Spelling

/-!
# What a config needs of a table

The names that a config consumes are the ones that matter. They are names of the table
(`subset_keys_of_mapValue`), and a config that consumes none stays as it is (`mapValue_of_unused`). Take a table
that has the consumed names and otherwise only names of the first table (`Narrows`): it consumes the same names,
and with the same external names for them it gives the same config (`Follows`, `follows_mapValue`).

With other external names mapping may fail, although the table says no more and no less: a bare operand is looked
at together with its new name, and a new name with a numeral of too many digits cannot be read
(`mapConfigEntries_consumed_of_long`). That is the only way (`mapConfigEntries_consumed`).
-/

namespace RowPipeline

open Text Expression

/-- No dictionary in a value has a key twice. -/
inductive Value.DistinctKeys : Value → Prop
  | scalar (s : Scalar) : DistinctKeys (.scalar s)
  | list {vs : List Value} : (∀ v ∈ vs, DistinctKeys v) → DistinctKeys (.list vs)
  | dict {es : List (Key × Value)} :
    (Entries.keys es).Nodup → (∀ k v, (k, v) ∈ es → DistinctKeys v) → DistinctKeys (.dict es)

namespace Mapping

variable {α β γ : Type} {m m' : Mapping} {n e e' s : String} {v w : Value} {vs ws : List Value}
  {es fs : List (Key × Value)} {used more : List String} {k : Key}

/-! ### One part after the other -/

/-- Two mapped parts put together; the names that the first one consumes come first. -/
def join (f : α → β → γ) (x : Except Failure (α × List String)) (y : Except Failure (β × List String)) :
    Except Failure (γ × List String) :=
  x.bind fun (a, used) => y.bind fun (b, more) => .ok (f a b, used ++ more)

theorem join_ok_iff {f : α → β → γ} {x : Except Failure (α × List String)}
    {y : Except Failure (β × List String)} {c : γ} : join f x y = .ok (c, used) ↔
      ∃ a us b more, x = .ok (a, us) ∧ y = .ok (b, more) ∧ c = f a b ∧ used = us ++ more := by
  unfold join
  constructor
  · intro h
    obtain ⟨⟨a, us⟩, hx, h⟩ := bind_eq_ok_iff.mp h
    obtain ⟨⟨b, more⟩, hy, h⟩ := bind_eq_ok_iff.mp h
    obtain ⟨rfl, rfl⟩ := Prod.mk.inj (Except.ok.inj h)
    exact ⟨a, us, b, more, hx, hy, rfl, rfl⟩
  · rintro ⟨a, us, b, more, rfl, rfl, rfl, rfl⟩
    rfl

theorem mapItems_cons (m : Mapping) (v : Value) (vs : List Value) :
    m.mapItems (v :: vs) = join List.cons (m.mapValue v) (m.mapItems vs) := by
  rw [mapItems]
  rfl

theorem mapEntries_cons (m : Mapping) (k : Key) (v : Value) (es : List (Key × Value)) :
    m.mapEntries ((k, v) :: es) =
      join List.cons (join Prod.mk (.ok (m.mapKey k)) (m.mapValue v)) (m.mapEntries es) := by
  rw [mapEntries]
  cases m.mapValue v <;> rfl

theorem mapValue_list (m : Mapping) (vs : List Value) :
    m.mapValue (.list vs) = (m.mapItems vs).map fun (ws, used) => (.list ws, used) := by
  rw [mapValue]
  cases m.mapItems vs <;> rfl

theorem mapValue_dict (m : Mapping) (es : List (Key × Value)) :
    m.mapValue (.dict es) = (m.mapEntries es).map fun (fs, used) => (.dict (Entries.putAll [] fs), used) := by
  rw [mapValue]
  cases m.mapEntries es <;> rfl

/-! ### A text -/

/-- Whether an expression has an operand to rename does not depend on the new name. -/
theorem renameOperand_eq_none_iff : renameOperand s n e = .ok none ↔
    (∃ ch p, tokenize (behindMarker s) = .error (.lexical ch p)) ∨
      ∃ ts, tokenize (behindMarker s) = .ok ts ∧ findOperand n (behindMarker s) ts = none := by
  have hbehind : (s.toList.dropWhile (· != marker)).drop 1 = behindMarker s := rfl
  rw [renameOperand]
  simp only [hbehind]
  cases ht : tokenize (behindMarker s) with
  | error failure =>
    rcases Cursor.tokens_error _ ht with rfl | ⟨ch, p, rfl⟩
    · simp [tokens?, ht, bind, Except.bind]
    · simp [tokens?, ht, bind, Except.bind, pure, Except.pure]
  | ok ts =>
    have htokens : tokens? (behindMarker s) = .ok (some ts) := by rw [tokens?, ht]
    rcases hf : findOperand n (behindMarker s) ts with _ | ⟨p, quote⟩
    · simp [htokens, hf, bind, Except.bind, pure, Except.pure]
    · cases ho : operandText e quote <;> simp [htokens, hf, ho, bind, Except.bind, pure, Except.pure]

/-- What comes of a text that can be mapped, and the names consumed for it. -/
inductive TextMapped (m : Mapping) (s : String) : Value → List String → Prop
  | whole {e : String} : m.get? s = some e → TextMapped m s (.text e) [s]
  | operand {e s' : String} : m.get? s = none → hasMarker s → isClosed s = false →
    m.get? (subject s) = some e → renameOperand s (subject s) e = .ok (some s') →
      TextMapped m s (.text s') [subject s]
  | same : m.get? s = none → (hasMarker s → isClosed s → ∃ a, evaluateClosed s = .ok a) →
    (hasMarker s → isClosed s = false →
      ∀ e, m.get? (subject s) = some e → renameOperand s (subject s) e = .ok none) →
    TextMapped m s (.text s) []

theorem textMapped_of_ok (h : m.mapText s = .ok (w, used)) : m.TextMapped s w used := by
  cases hs : m.get? s with
  | some e =>
    rw [mapText_of_some hs] at h
    obtain ⟨rfl, rfl⟩ := Prod.mk.inj (Except.ok.inj h)
    exact .whole hs
  | none =>
    by_cases hm : hasMarker s
    case neg =>
      rw [mapText_of_unmarked hs (by simpa using hm)] at h
      obtain ⟨rfl, rfl⟩ := Prod.mk.inj (Except.ok.inj h)
      exact .same hs (fun hm' => absurd hm' hm) fun hm' => absurd hm' hm
    cases hc : isClosed s with
    | true =>
      rw [mapText_of_closed hs hm hc] at h
      obtain ⟨a, ha, hsame⟩ := map_eq_ok_iff.mp h
      obtain ⟨rfl, rfl⟩ := Prod.mk.inj hsame
      exact .same hs (fun _ _ => ⟨a, ha⟩) fun _ hopen => by rw [hc] at hopen; cases hopen
    | false =>
      have hclosed : isClosed s → ∃ a, evaluateClosed s = .ok a := fun h => by rw [hc] at h; cases h
      rw [mapText_of_open hs hm hc] at h
      cases hx : m.get? (subject s) with
      | none =>
        simp only [hx] at h
        obtain ⟨rfl, rfl⟩ := Prod.mk.inj (Except.ok.inj h)
        exact .same hs (fun _ => hclosed) fun _ _ e he => by rw [hx] at he; cases he
      | some e =>
        simp only [hx] at h
        obtain ⟨renamed, hr, hsame⟩ := map_eq_ok_iff.mp h
        cases renamed with
        | some s' =>
          obtain ⟨rfl, rfl⟩ := Prod.mk.inj hsame
          exact .operand hs hm hc hx hr
        | none =>
          obtain ⟨rfl, rfl⟩ := Prod.mk.inj hsame
          refine .same hs (fun _ => hclosed) fun _ _ e' he' => ?_
          obtain rfl : e = e' := Option.some.inj (hx.symm.trans he')
          exact hr

theorem mapText_of_same (hs : m.get? s = none)
    (hclosed : hasMarker s → isClosed s → ∃ a, evaluateClosed s = .ok a)
    (hopen : hasMarker s → isClosed s = false →
      ∀ e, m.get? (subject s) = some e → renameOperand s (subject s) e = .ok none) :
    m.mapText s = .ok (.text s, []) := by
  by_cases hm : hasMarker s
  case neg => exact mapText_of_unmarked hs (by simpa using hm)
  cases hc : isClosed s with
  | true =>
    obtain ⟨a, ha⟩ := hclosed hm hc
    rw [mapText_of_closed hs hm hc, ha]
    rfl
  | false =>
    rw [mapText_of_open hs hm hc]
    cases hx : m.get? (subject s) with
    | none => rfl
    | some e =>
      simp only [hopen hm hc e hx]
      rfl

/-! ### The consumed names -/

theorem mapKey_cases (m : Mapping) (k : Key) : m.external? k = none ∧ m.mapKey k = (k, []) ∨
    ∃ n e, k = .text n ∧ m.get? n = some e ∧ m.mapKey k = (.text e, [n]) := by
  cases he : m.external? k with
  | none => exact Or.inl ⟨rfl, by cases k <;> simp [mapKey, he]⟩
  | some e =>
    cases k with
    | text n => exact Or.inr ⟨n, e, rfl, he, by simp [mapKey, he]⟩
    | _ => cases he

theorem subset_keys_of_mapText (h : m.mapText s = .ok (w, used)) : used ⊆ m.keys := by
  cases textMapped_of_ok h with
  | whole hs => exact List.cons_subset.mpr ⟨Fields.mem_keys_of_get? hs, List.nil_subset _⟩
  | operand _ _ _ hx _ => exact List.cons_subset.mpr ⟨Fields.mem_keys_of_get? hx, List.nil_subset _⟩
  | same => exact List.nil_subset _

theorem mapKey_subset_keys (m : Mapping) (k : Key) : (m.mapKey k).2 ⊆ m.keys := by
  rcases mapKey_cases m k with ⟨-, hkey⟩ | ⟨n, e, -, he, hkey⟩
  · rw [hkey]
    exact List.nil_subset _
  · rw [hkey]
    exact List.cons_subset.mpr ⟨Fields.mem_keys_of_get? he, List.nil_subset _⟩

mutual

/-- Only names of the table are consumed. -/
theorem subset_keys_of_mapValue : ∀ {v w : Value} {used : List String}, m.mapValue v = .ok (w, used) →
    used ⊆ m.keys
  | .scalar s, w, used, h => by
    cases s with
    | text s =>
      rw [mapValue] at h
      exact subset_keys_of_mapText h
    | _ =>
      obtain ⟨-, rfl⟩ := Prod.mk.inj (Except.ok.inj h)
      exact List.nil_subset _
  | .list vs, w, used, h => by
    rw [mapValue_list] at h
    obtain ⟨⟨ws, us⟩, hvs, hw⟩ := map_eq_ok_iff.mp h
    obtain ⟨-, rfl⟩ := Prod.mk.inj hw
    exact subset_keys_of_mapItems hvs
  | .dict es, w, used, h => by
    rw [mapValue_dict] at h
    obtain ⟨⟨fs, us⟩, hes, hw⟩ := map_eq_ok_iff.mp h
    obtain ⟨-, rfl⟩ := Prod.mk.inj hw
    exact subset_keys_of_mapEntries hes

theorem subset_keys_of_mapItems : ∀ {vs ws : List Value} {used : List String},
    m.mapItems vs = .ok (ws, used) → used ⊆ m.keys
  | [], ws, used, h => by
    obtain ⟨-, rfl⟩ := Prod.mk.inj (Except.ok.inj h)
    exact List.nil_subset _
  | v :: vs, ws, used, h => by
    rw [mapItems_cons] at h
    obtain ⟨w, us, rest, more, hv, hvs, -, rfl⟩ := join_ok_iff.mp h
    exact List.append_subset.mpr ⟨subset_keys_of_mapValue hv, subset_keys_of_mapItems hvs⟩

theorem subset_keys_of_mapEntries : ∀ {es fs : List (Key × Value)} {used : List String},
    m.mapEntries es = .ok (fs, used) → used ⊆ m.keys
  | [], fs, used, h => by
    obtain ⟨-, rfl⟩ := Prod.mk.inj (Except.ok.inj h)
    exact List.nil_subset _
  | (k, v) :: es, fs, used, h => by
    rw [mapEntries_cons] at h
    obtain ⟨entry, _, rest, more, hentry, hes, -, rfl⟩ := join_ok_iff.mp h
    obtain ⟨_, named, w, us, hkey, hv, -, rfl⟩ := join_ok_iff.mp hentry
    have hnamed : named = (m.mapKey k).2 := (congrArg Prod.snd (Except.ok.inj hkey)).symm
    subst hnamed
    exact List.append_subset.mpr ⟨List.append_subset.mpr ⟨mapKey_subset_keys m k, subset_keys_of_mapValue hv⟩,
      subset_keys_of_mapEntries hes⟩

end

mutual

/-- **A value that consumes nothing** stays as it is. -/
theorem mapValue_of_unused : ∀ {v w : Value}, v.DistinctKeys → m.mapValue v = .ok (w, []) → w = v
  | .scalar s, w, _, h => by
    cases s with
    | text s =>
      rw [mapValue] at h
      cases textMapped_of_ok h with
      | same => rfl
    | _ => exact (Prod.mk.inj (Except.ok.inj h)).1.symm
  | .list vs, w, hd, h => by
    cases hd with
    | list hd =>
      rw [mapValue_list] at h
      obtain ⟨⟨ws, us⟩, hvs, hw⟩ := map_eq_ok_iff.mp h
      obtain ⟨rfl, rfl⟩ := Prod.mk.inj hw
      rw [mapItems_of_unused hd hvs]
  | .dict es, w, hd, h => by
    cases hd with
    | dict hnodup hd =>
      rw [mapValue_dict] at h
      obtain ⟨⟨fs, us⟩, hes, hw⟩ := map_eq_ok_iff.mp h
      obtain ⟨rfl, rfl⟩ := Prod.mk.inj hw
      have hput : Entries.putAll [] es = es := Entries.putAll_of_nodup hnodup
      rw [mapEntries_of_unused hd hes, hput]

theorem mapItems_of_unused : ∀ {vs ws : List Value}, (∀ v ∈ vs, v.DistinctKeys) →
    m.mapItems vs = .ok (ws, []) → ws = vs
  | [], ws, _, h => (Prod.mk.inj (Except.ok.inj h)).1.symm
  | v :: vs, ws, hd, h => by
    rw [mapItems_cons] at h
    obtain ⟨w, us, rest, more, hv, hvs, rfl, hnone⟩ := join_ok_iff.mp h
    obtain ⟨rfl, rfl⟩ := List.append_eq_nil_iff.mp hnone.symm
    obtain ⟨hdv, hdvs⟩ := List.forall_mem_cons.mp hd
    rw [mapValue_of_unused hdv hv, mapItems_of_unused hdvs hvs]

theorem mapEntries_of_unused : ∀ {es fs : List (Key × Value)}, (∀ k v, (k, v) ∈ es → v.DistinctKeys) →
    m.mapEntries es = .ok (fs, []) → fs = es
  | [], fs, _, h => (Prod.mk.inj (Except.ok.inj h)).1.symm
  | (k, v) :: es, fs, hd, h => by
    rw [mapEntries_cons] at h
    obtain ⟨entry, _, rest, more, hentry, hes, rfl, hnone⟩ := join_ok_iff.mp h
    obtain ⟨rfl, rfl⟩ := List.append_eq_nil_iff.mp hnone.symm
    obtain ⟨_, _, w, us, hkey, hv, rfl, hnone⟩ := join_ok_iff.mp hentry
    obtain ⟨rfl, rfl⟩ := List.append_eq_nil_iff.mp hnone.symm
    have hkey := Except.ok.inj hkey
    rcases mapKey_cases m k with ⟨-, hsame⟩ | ⟨n, e, -, -, hsome⟩
    case inr =>
      rw [hsome] at hkey
      cases hkey
    obtain ⟨rfl, -⟩ := Prod.mk.inj (hsame.symm.trans hkey)
    rw [mapValue_of_unused (hd k v (by simp)) hv,
      mapEntries_of_unused (fun k' v' he => hd k' v' (List.mem_cons_of_mem _ he)) hes]

end

/-! ### A narrower table -/

theorem exists_get?_of_mem_keys (h : n ∈ m.keys) : ∃ e, m.get? n = some e := by
  cases he : m.get? n with
  | some e => exact ⟨e, rfl⟩
  | none => exact absurd h (Fields.get?_eq_none_iff.mp he)

/-- A table that has the names `used`, and no names but those of `m`. -/
structure Narrows (m' m : Mapping) (used : List String) : Prop where
  within : m'.keys ⊆ m.keys
  keeps : used ⊆ m'.keys

namespace Narrows

theorem get?_of_mem (h : Narrows m' m used) (hn : n ∈ used) : ∃ e, m'.get? n = some e :=
  exists_get?_of_mem_keys (h.keeps hn)

theorem get?_of_none (h : Narrows m' m used) (hn : m.get? n = none) : m'.get? n = none :=
  Fields.get?_eq_none_iff.mpr fun hmem => Fields.get?_eq_none_iff.mp hn (h.within hmem)

theorem left (h : Narrows m' m (used ++ more)) : Narrows m' m used :=
  ⟨h.within, fun _ hn => h.keeps (List.mem_append_left _ hn)⟩

theorem right (h : Narrows m' m (used ++ more)) : Narrows m' m more :=
  ⟨h.within, fun _ hn => h.keeps (List.mem_append_right _ hn)⟩

end Narrows

/-- What `m'` makes of something that `m` maps to `a`, consuming `used`. The same names are consumed, and with
the same external names for them it becomes `a` again; or a consumed name has a new external name in `m'`, and
that one is too long to be looked at. -/
inductive Follows (m m' : Mapping) (a : α) (used : List String) :
    Except Failure (α × List String) → Prop
  | mapped {a' : α} : ((∀ n ∈ used, m'.get? n = m.get? n) → a' = a) →
    Follows m m' a used (.ok (a', used))
  | tooLong {n e : String} : n ∈ used → m'.get? n = some e → m.get? n ≠ some e →
    tokenize e.toList = .error .numeralTooLong → Follows m m' a used (.error .numeralTooLong)

theorem Follows.map {a : α} {x : Except Failure (α × List String)} (f : α → β)
    (h : Follows m m' a used x) : Follows m m' (f a) used (x.map fun (a, us) => (f a, us)) := by
  cases h with
  | mapped ha => exact .mapped fun hsame => by rw [ha hsame]
  | tooLong hn he hne hlong => exact .tooLong hn he hne hlong

theorem Follows.join {a : α} {b : β} {x : Except Failure (α × List String)}
    {y : Except Failure (β × List String)} (f : α → β → γ) (hx : Follows m m' a used x)
    (hy : Follows m m' b more y) : Follows m m' (f a b) (used ++ more) (join f x y) := by
  cases hx with
  | tooLong hn he hne hlong => exact .tooLong (List.mem_append_left _ hn) he hne hlong
  | mapped ha =>
    cases hy with
    | tooLong hn he hne hlong => exact .tooLong (List.mem_append_right _ hn) he hne hlong
    | mapped hb =>
      refine .mapped fun hsame => ?_
      rw [ha fun n hn => hsame n (List.mem_append_left _ hn),
        hb fun n hn => hsame n (List.mem_append_right _ hn)]

theorem follows_mapText (h : m.mapText s = .ok (w, used)) (hn : Narrows m' m used) :
    Follows m m' w used (m'.mapText s) := by
  cases textMapped_of_ok h with
  | whole hs =>
    obtain ⟨e', he'⟩ := hn.get?_of_mem (List.mem_singleton_self s)
    rw [mapText_of_some he']
    refine .mapped fun hsame => ?_
    rw [Option.some.inj ((he'.symm.trans (hsame s (by simp))).trans hs)]
  | same hs hclosed hopen =>
    have hsame : m'.mapText s = .ok (.text s, []) := by
      refine mapText_of_same (hn.get?_of_none hs) hclosed fun hm hc e' he' => ?_
      cases hx : m.get? (subject s) with
      | none =>
        rw [hn.get?_of_none hx] at he'
        cases he'
      | some e => exact renameOperand_eq_none_iff.mpr (renameOperand_eq_none_iff.mp (hopen hm hc e hx))
    rw [hsame]
    exact .mapped fun _ => rfl
  | @operand e s' hs hm hc hx hr =>
    obtain ⟨e', he'⟩ := hn.get?_of_mem (List.mem_singleton_self (subject s))
    rw [mapText_of_open (hn.get?_of_none hs) hm hc, he']
    change Follows _ _ _ _ ((renameOperand s (subject s) e').map _)
    cases hr' : renameOperand s (subject s) e' with
    | ok renamed =>
      cases renamed with
      | none =>
        rw [renameOperand_eq_none_iff.mpr (renameOperand_eq_none_iff.mp hr')] at hr
        cases hr
      | some s'' =>
        refine .mapped fun hsame => ?_
        obtain rfl : e' = e :=
          Option.some.inj ((he'.symm.trans (hsame _ (List.mem_singleton_self _))).trans hx)
        rw [Option.some.inj (Except.ok.inj (hr'.symm.trans hr))]
    | error failure =>
      obtain ⟨rfl, hlong⟩ := renameOperand_eq_error_iff.mp hr'
      have hne : m.get? (subject s) ≠ some e' := by
        rw [hx]
        rintro ⟨rfl⟩
        rw [hr'] at hr
        cases hr
      cases hlong with
      | inName _ _ hlong => exact .tooLong (List.mem_singleton_self _) he' hne hlong
      | inExpression hlong =>
        rw [renameOperand_eq_error_iff.mpr ⟨rfl, .inExpression hlong⟩] at hr
        cases hr

theorem follows_mapKey (hn : Narrows m' m (m.mapKey k).2) :
    Follows m m' (m.mapKey k).1 (m.mapKey k).2 (.ok (m'.mapKey k)) := by
  rcases mapKey_cases m k with ⟨hnone, hkey⟩ | ⟨n, e, rfl, he, hkey⟩
  · rcases mapKey_cases m' k with ⟨-, hkey'⟩ | ⟨n, e, rfl, he', -⟩
    · rw [hkey, hkey']
      exact .mapped fun _ => rfl
    · rw [hn.get?_of_none hnone] at he'
      cases he'
  · rw [hkey] at hn ⊢
    obtain ⟨e', he'⟩ := hn.get?_of_mem (List.mem_singleton_self n)
    have hkey' : m'.mapKey (.text n) = (.text e', [n]) := by simp [mapKey, external?, he']
    rw [hkey']
    refine .mapped fun hsame => ?_
    rw [Option.some.inj ((he'.symm.trans (hsame n (by simp))).trans he)]

/-! ### A value -/

mutual

/-- **A narrower table follows**: it consumes the same names, and gives the same with the same external names
for them. -/
theorem follows_mapValue : ∀ {v w : Value} {used : List String}, m.mapValue v = .ok (w, used) →
    Narrows m' m used → Follows m m' w used (m'.mapValue v)
  | .scalar s, w, used, h, hn => by
    cases s with
    | text s =>
      rw [mapValue] at h ⊢
      exact follows_mapText h hn
    | _ =>
      obtain ⟨rfl, rfl⟩ := Prod.mk.inj (Except.ok.inj h)
      exact .mapped fun _ => rfl
  | .list vs, w, used, h, hn => by
    rw [mapValue_list] at h ⊢
    obtain ⟨⟨ws, us⟩, hvs, hw⟩ := map_eq_ok_iff.mp h
    obtain ⟨rfl, rfl⟩ := Prod.mk.inj hw
    exact (follows_mapItems hvs hn).map Value.list
  | .dict es, w, used, h, hn => by
    rw [mapValue_dict] at h ⊢
    obtain ⟨⟨fs, us⟩, hes, hw⟩ := map_eq_ok_iff.mp h
    obtain ⟨rfl, rfl⟩ := Prod.mk.inj hw
    exact (follows_mapEntries hes hn).map fun fs => Value.dict (Entries.putAll [] fs)

theorem follows_mapItems : ∀ {vs ws : List Value} {used : List String}, m.mapItems vs = .ok (ws, used) →
    Narrows m' m used → Follows m m' ws used (m'.mapItems vs)
  | [], ws, used, h, _ => by
    obtain ⟨rfl, rfl⟩ := Prod.mk.inj (Except.ok.inj h)
    exact .mapped fun _ => rfl
  | v :: vs, ws, used, h, hn => by
    rw [mapItems_cons] at h ⊢
    obtain ⟨w, us, rest, more, hv, hvs, rfl, rfl⟩ := join_ok_iff.mp h
    exact (follows_mapValue hv hn.left).join List.cons (follows_mapItems hvs hn.right)

theorem follows_mapEntries : ∀ {es fs : List (Key × Value)} {used : List String},
    m.mapEntries es = .ok (fs, used) → Narrows m' m used → Follows m m' fs used (m'.mapEntries es)
  | [], fs, used, h, _ => by
    obtain ⟨rfl, rfl⟩ := Prod.mk.inj (Except.ok.inj h)
    exact .mapped fun _ => rfl
  | (k, v) :: es, fs, used, h, hn => by
    rw [mapEntries_cons] at h ⊢
    obtain ⟨entry, _, rest, more, hentry, hes, rfl, rfl⟩ := join_ok_iff.mp h
    obtain ⟨_, _, w, us, hkey, hv, rfl, rfl⟩ := join_ok_iff.mp hentry
    obtain ⟨rfl, rfl⟩ := Prod.mk.inj (Except.ok.inj hkey)
    exact ((follows_mapKey hn.left.left).join Prod.mk (follows_mapValue hv hn.left.right)).join List.cons
      (follows_mapEntries hes hn.right)

end

/-! ### A config -/

variable {config mapped : Value}

theorem isEmpty_iff_keys : m.isEmpty ↔ m.keys = [] := by
  rw [Fields.isEmpty, List.isEmpty_iff]
  exact List.map_eq_nil_iff.symm

theorem mapConfigEntries_of_isEmpty (h : m.isEmpty) : m.mapConfigEntries config = .ok (config, []) := by
  unfold mapConfigEntries
  exact if_pos h

/-- A config that has no parts stays as it is; any other one is mapped in depth by a table with entries. -/
theorem mapConfigEntries_cases (config : Value) :
    (∀ m : Mapping, m.mapConfigEntries config = .ok (config, [])) ∨
      ∀ m : Mapping, m.isEmpty = false → m.mapConfigEntries config = m.mapValue config := by
  cases config with
  | scalar s =>
    refine Or.inl fun m => ?_
    unfold mapConfigEntries
    split <;> rfl
  | list vs => exact Or.inr fun m => mapConfigEntries_list
  | dict es => exact Or.inr fun m => mapConfigEntries_dict

theorem subset_keys_of_mapConfigEntries (h : m.mapConfigEntries config = .ok (mapped, used)) :
    used ⊆ m.keys := by
  cases hempty : m.isEmpty with
  | true =>
    rw [mapConfigEntries_of_isEmpty hempty] at h
    obtain ⟨-, rfl⟩ := Prod.mk.inj (Except.ok.inj h)
    exact List.nil_subset _
  | false =>
    rcases mapConfigEntries_cases config with hsame | hdeep
    · rw [hsame] at h
      obtain ⟨-, rfl⟩ := Prod.mk.inj (Except.ok.inj h)
      exact List.nil_subset _
    · rw [hdeep m hempty] at h
      exact subset_keys_of_mapValue h

theorem mapConfigEntries_of_unused (hd : config.DistinctKeys)
    (h : m.mapConfigEntries config = .ok (mapped, [])) : mapped = config := by
  cases hempty : m.isEmpty with
  | true =>
    rw [mapConfigEntries_of_isEmpty hempty] at h
    exact (Prod.mk.inj (Except.ok.inj h)).1.symm
  | false =>
    rcases mapConfigEntries_cases config with hsame | hdeep
    · rw [hsame] at h
      exact (Prod.mk.inj (Except.ok.inj h)).1.symm
    · rw [hdeep m hempty] at h
      exact mapValue_of_unused hd h

theorem follows_mapConfigEntries (hd : config.DistinctKeys)
    (h : m.mapConfigEntries config = .ok (mapped, used)) (hn : Narrows m' m used) :
    Follows m m' mapped used (m'.mapConfigEntries config) := by
  cases hempty' : m'.isEmpty with
  | true =>
    -- nothing can be consumed, so nothing was changed
    obtain rfl : used = [] := List.subset_nil.mp (isEmpty_iff_keys.mp hempty' ▸ hn.keeps)
    rw [mapConfigEntries_of_isEmpty hempty']
    exact .mapped fun _ => (mapConfigEntries_of_unused hd h).symm
  | false =>
    have hempty : m.isEmpty = false := by
      by_contra hm
      have hkeys : m'.keys = [] :=
        List.subset_nil.mp (isEmpty_iff_keys.mp (by simpa using hm) ▸ hn.within)
      rw [isEmpty_iff_keys.mpr hkeys] at hempty'
      cases hempty'
    rcases mapConfigEntries_cases config with hsame | hdeep
    · rw [hsame] at h ⊢
      obtain ⟨rfl, rfl⟩ := Prod.mk.inj (Except.ok.inj h)
      exact .mapped fun _ => rfl
    · rw [hdeep m hempty] at h
      rw [hdeep m' hempty']
      exact follows_mapValue h hn

/-- **The consumed names are the ones that matter.** Let `m` map a config and consume the names `used`, which are
names of `m`. A table that has no other names than `m`, and the same external names for `used`, maps the config to
the same and consumes the same. With any external names for `used` it consumes the same names, or it fails: the
external name of one of them cannot be read, because it holds a numeral of too many digits. A config that consumes
nothing stays as it is. -/
theorem mapConfigEntries_consumed (m : Mapping) (config mapped : Value) (used : List String)
    (hd : config.DistinctKeys) (h : m.mapConfigEntries config = .ok (mapped, used)) :
    used ⊆ m.keys ∧
      (∀ m' : Mapping, m'.keys ⊆ m.keys → (∀ n ∈ used, m'.get? n = m.get? n) →
        m'.mapConfigEntries config = .ok (mapped, used)) ∧
      (∀ m' : Mapping, m'.keys ⊆ m.keys → used ⊆ m'.keys →
        (∃ mapped', m'.mapConfigEntries config = .ok (mapped', used)) ∨
          m'.mapConfigEntries config = .error .numeralTooLong ∧
            ∃ n ∈ used, ∃ e, m'.get? n = some e ∧ tokenize e.toList = .error .numeralTooLong) ∧
      (used = [] → mapped = config) := by
  have hsub : used ⊆ m.keys := subset_keys_of_mapConfigEntries h
  refine ⟨hsub, fun m' hwithin hsame => ?_, fun m' hwithin hkeeps => ?_, fun hnone => ?_⟩
  · have hkeeps : used ⊆ m'.keys := by
      intro n hn
      obtain ⟨e, he⟩ := exists_get?_of_mem_keys (hsub hn)
      exact Fields.mem_keys_of_get? ((hsame n hn).trans he)
    have hfollows := follows_mapConfigEntries hd h ⟨hwithin, hkeeps⟩
    generalize m'.mapConfigEntries config = outcome at hfollows ⊢
    cases hfollows with
    | mapped ha => rw [ha hsame]
    | tooLong hn he hne => exact absurd ((hsame _ hn).symm.trans he) hne
  · have hfollows := follows_mapConfigEntries hd h ⟨hwithin, hkeeps⟩
    generalize m'.mapConfigEntries config = outcome at hfollows ⊢
    cases hfollows with
    | mapped ha => exact Or.inl ⟨_, rfl⟩
    | tooLong hn he _ hlong => exact Or.inr ⟨rfl, _, hn, _, he, hlong⟩
  · subst hnone
    exact mapConfigEntries_of_unused hd h

/-- Of two entries one is applied to a key and in a text. The other one stands in a text that does not read as
tokens, so it does not matter what it says. -/
theorem mapConfigEntries_consumed_of_one :
    let m : Mapping := ⟨[("cpu", "cpu/energy"), ("mem", "memory")], by decide⟩
    let m' : Mapping := ⟨[("mem", "ram"), ("cpu", "cpu/energy")], by decide⟩
    let config : Value := .dict [(.text "cpu", .list [.text "=2*cpu", .text "=mem%2"])]
    let mapped : Value :=
      .dict [(.text "cpu/energy", .list [.text "=2*\"cpu/energy\"", .text "=mem%2"])]
    config.DistinctKeys ∧ m.mapConfigEntries config = .ok (mapped, ["cpu", "cpu"]) ∧
      m'.keys ⊆ m.keys ∧ (∀ n ∈ ["cpu", "cpu"], m'.get? n = m.get? n) ∧
      m'.mapConfigEntries config = .ok (mapped, ["cpu", "cpu"]) := by
  intro m m' config mapped
  have hcpu : m.mapValue (.text "=2*cpu") = .ok (.text "=2*\"cpu/energy\"", ["cpu"]) :=
    mapValue_of_renamed (by decide) (extractVariable_of_open (by decide) (by decide +kernel)) rfl rfl
      (by cbv)
  have hmem : m.mapValue (.text "=mem%2") = .ok (.text "=mem%2", []) := by
    have hunread : renameOperand "=mem%2" "mem" "memory" = .ok none := by decide +kernel
    have hsubject : subject "=mem%2" = "mem" := by decide +kernel
    rw [mapValue]
    refine mapText_of_same rfl (fun _ hc => absurd hc (by decide)) fun _ _ e he => ?_
    rw [hsubject] at he ⊢
    obtain rfl : "memory" = e := Option.some.inj he
    exact hunread
  have hitems : m.mapItems [.text "=2*cpu", .text "=mem%2"] =
      .ok ([.text "=2*\"cpu/energy\"", .text "=mem%2"], ["cpu"]) := by
    rw [mapItems_cons, mapItems_cons, hcpu, hmem]
    rfl
  have h : m.mapConfigEntries config = .ok (mapped, ["cpu", "cpu"]) := by
    rw [mapConfigEntries_dict rfl, mapValue_dict, mapEntries_cons, mapValue_list, hitems]
    rfl
  have hd : config.DistinctKeys := by
    refine .dict (by decide) fun k v hv => ?_
    obtain ⟨-, rfl⟩ := Prod.mk.inj (List.mem_singleton.mp hv)
    refine .list fun v hv => ?_
    rcases List.mem_pair.mp hv with rfl | rfl
    · exact .scalar _
    · exact .scalar _
  have hwithin : m'.keys ⊆ m.keys := by decide
  have hsame : ∀ n ∈ ["cpu", "cpu"], m'.get? n = m.get? n := by decide
  obtain ⟨-, hagain, -⟩ := mapConfigEntries_consumed m config mapped _ hd h
  exact ⟨hd, h, hwithin, hsame, hagain m' hwithin hsame⟩

/-- **A new external name can keep a config from being mapped.** `=carbon*2` consumes `carbon`, and with a name of
4301 digits for it mapping fails. -/
theorem mapConfigEntries_consumed_of_long :
    let x := String.ofList (List.replicate (Numeral.maxDigits + 1) '1')
    let config : Value := .list [.text "=carbon*2"]
    (ofPair "carbon" "carbon-product").mapConfigEntries config =
        .ok (.list [.text "=carbon-product*2"], ["carbon"]) ∧
      (ofPair "carbon" x).keys = (ofPair "carbon" "carbon-product").keys ∧
      (ofPair "carbon" x).mapConfigEntries config = .error .numeralTooLong ∧
      ∀ mapped', (ofPair "carbon" x).mapConfigEntries config ≠ .ok (mapped', ["carbon"]) := by
  intro x config
  have hlist : x.toList = List.replicate (Numeral.maxDigits + 1) '1' := String.toList_ofList
  have hlong : tokenize x.toList = .error .numeralTooLong := by
    refine Lexer.tokenize_of_long (fun c hc => ?_) (by rw [hlist, List.length_replicate]; omega)
    rw [hlist] at hc
    rw [List.eq_of_mem_replicate hc]
    decide
  have htokens : tokenize (behindMarker "=carbon*2") = .ok [⟨.name "carbon", 0⟩, ⟨.times, 6⟩,
      ⟨.number (.int 2), 7⟩, ⟨.finish, 8⟩] := by decide +kernel
  have hvariable : variableName? "=carbon*2" = some "carbon" := by decide +kernel
  have hshort : (ofPair "carbon" "carbon-product").mapValue (.text "=carbon*2") =
      .ok (.text "=carbon-product*2", ["carbon"]) :=
    mapValue_of_renamed (by decide) (extractVariable_of_open (by decide) hvariable) rfl rfl
      (by decide +kernel)
  have hbalks : (ofPair "carbon" x).Balks "=carbon*2" .numeralTooLong := by
    have hsubject : subject "=carbon*2" = "carbon" := by rw [subject, hvariable]; rfl
    refine ⟨get?_ofPair_of_ne (by decide), by decide, ?_⟩
    rw [if_neg (by decide), hsubject]
    exact ⟨rfl, x, get?_ofPair _ x, .inName htokens rfl hlong⟩
  have hfail : (ofPair "carbon" x).mapConfigEntries config = .error .numeralTooLong := by
    rw [mapConfigEntries_list (isEmpty_of_get? (get?_ofPair "carbon" x)), mapValue_list, mapItems_cons,
      mapValue, mapText_eq_error_iff.mpr hbalks]
    rfl
  have hkeys : ∀ y, (ofPair "carbon" y).keys = ["carbon"] := fun _ => rfl
  refine ⟨?_, (hkeys x).trans (hkeys _).symm, hfail, fun mapped' hmapped => ?_⟩
  · rw [mapConfigEntries_list rfl, mapValue_list, mapItems_cons, hshort]
    rfl
  · rw [hfail] at hmapped
    cases hmapped

end Mapping

end RowPipeline
