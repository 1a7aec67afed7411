import RowPipeline.Proofs.Mapping.Consumption

/-!
# What a table makes of a config

A table changes a config in places: a key or a text that is an internal name becomes the external one, and an open
marked text has the first operand of the name it refers to exchanged in it (`Renames`). Everything else stays as
it is, and entries whose keys become equal are put together. So the changed config is told without the pass that
makes it, and each name comes with a key or a text that was changed by its entry (`Changes`).

Main statements: an operand is exchanged as `Rewrites` says (`rewrites_iff`), a value becomes what `Changes` says
(`changes_iff_of_mapValue`), and so does a config, and the names that leave the table are those that it was changed
by (`changesRecord_of_mapRecord`).
-/

namespace RowPipeline

open Text Expression

namespace Mapping

variable {m left : Mapping} {n x s s' : String} {v w w' : Value} {vs ws ws' : List Value}
  {es fs fs' : List (Key × Value)} {used used' : List String} {k : Key} {quote quote' : Option Char}
  {run : List Char}

/-! ### An operand -/

/-- A text that reads as a bare name and as nothing else. -/
def ReadsAsName (x : String) : Prop := ∃ t u, tokenize x.toList = .ok [t, u] ∧ t.lexeme = .name x

/-- The quote of a new name in the place of an operand. The quotes of the operand stay; in the place of a bare one,
the new name is quoted unless it reads as a name. -/
inductive Quotes (x : String) : Option Char → Option Char → Prop
  | same (q : Char) : Quotes x (some q) (some q)
  | bare : ReadsAsName x → Quotes x none none
  | double : ¬ ReadsAsName x → '"' ∉ x.toList → Quotes x none (some '"')
  | single : ¬ ReadsAsName x → '"' ∈ x.toList → Quotes x none (some '\'')

/-- **A name exchanged in a marked text**: behind the marker the first operand `n`, with its quotes if it has some,
gives way to `x`, and the rest of the text is the same. -/
inductive Rewrites (s n x : String) : String → Prop
  | operand {blanks front rest : List Char} {before after : List Token} {t : Token}
    {quote quote' : Option Char} : (∀ c ∈ blanks, isBlank c) →
    s.toList = blanks ++ marker :: (front ++ (spell n quote ++ rest)) →
    tokenize (front ++ (spell n quote ++ rest)) = .ok (before ++ t :: after) →
    (∀ u ∈ before, u.lexeme.isNamed n = false) → t.lexeme = .ofName n quote.isSome →
    t.position = front.length → Quotes x quote quote' →
      Rewrites s n x (String.ofList (blanks ++ marker :: (front ++ (spell x quote' ++ rest))))

theorem Quotes.unique {q q' : Option Char} (h : Quotes x quote q) (h' : Quotes x quote q') : q = q' := by
  cases h <;> cases h' <;> first | rfl | contradiction

theorem isBareName_iff {bare : Bool} (h : isBareName x = .ok bare) : bare ↔ ReadsAsName x := by
  rw [isBareName] at h
  obtain ⟨ts?, hts, h⟩ := bind_eq_ok_iff.mp h
  cases ht : tokenize x.toList with
  | error failure =>
    have hnone : ts? = none := by
      rcases Cursor.tokens_error _ ht with rfl | ⟨ch, p, rfl⟩
      · simp [tokens?, ht] at hts
      · simpa [tokens?, ht, eq_comm] using hts
    subst hnone
    obtain rfl := Except.ok.inj h
    simp [ReadsAsName, ht]
  | ok ts =>
    obtain rfl : some ts = ts? := by simpa [tokens?, ht] using hts
    rcases ts with _ | ⟨t, _ | ⟨u, _ | ⟨w, ts⟩⟩⟩
    case cons.cons.nil =>
      obtain rfl := Except.ok.inj h
      simp [ReadsAsName, ht]
    all_goals
      obtain rfl := Except.ok.inj h
      simp [ReadsAsName, ht]

theorem quotes_of_operandText (h : operandText x quote = .ok run) :
    ∃ quote', Quotes x quote quote' ∧ run = spell x quote' := by
  cases quote with
  | some q => exact ⟨some q, .same q, (Except.ok.inj h).symm⟩
  | none =>
    rw [operandText] at h
    obtain ⟨bare, hbare, h⟩ := bind_eq_ok_iff.mp h
    have hname := isBareName_iff hbare
    cases bare with
    | true => exact ⟨none, .bare (hname.mp rfl), (Except.ok.inj h).symm⟩
    | false =>
      have hname : ¬ ReadsAsName x := mt hname.mpr Bool.false_ne_true
      obtain rfl := Except.ok.inj h
      by_cases hx : x.contains '"'
      · rw [if_pos hx]
        exact ⟨some '\'', .single hname (by simpa using hx), rfl⟩
      · rw [if_neg hx]
        exact ⟨some '"', .double hname (by simpa using hx), rfl⟩

/-- What `renameOperand` puts together. -/
theorem renamedText_eq {blanks front rest : List Char} (hb : ∀ c ∈ blanks, isBlank c)
    (hs : s.toList = blanks ++ marker :: (front ++ (spell n quote ++ rest))) :
    String.ofList (s.toList.takeWhile (· != marker) ++ [marker] ++ (behindMarker s).take front.length ++ run ++
      (behindMarker s).drop (front.length + (n.length + if quote.isSome then 2 else 0))) =
        String.ofList (blanks ++ marker :: (front ++ (run ++ rest))) := by
  rw [takeWhile_of_blanks hb hs, behindMarker_of_blanks hb hs, ← length_spell, ← List.append_assoc front,
    ← List.length_append]
  simp

/-- What is read where an operand is renamed. -/
theorem renameOperand_some {renamed : String} (h : renameOperand s n x = .ok (some renamed)) :
    ∃ ts p quote run, tokenize (behindMarker s) = .ok ts ∧
      findOperand n (behindMarker s) ts = some (p, quote) ∧ operandText x quote = .ok run := by
  have hbehind : (s.toList.dropWhile (· != marker)).drop 1 = behindMarker s := rfl
  rw [renameOperand] at h
  simp only [hbehind] at h
  obtain ⟨ts?, hts, h⟩ := bind_eq_ok_iff.mp h
  cases ts? with
  | none => cases h
  | some ts =>
    have ht : tokenize (behindMarker s) = .ok ts := by
      cases ht : tokenize (behindMarker s) with
      | error failure =>
        rcases Cursor.tokens_error _ ht with rfl | ⟨ch, p, rfl⟩ <;> simp [tokens?, ht] at hts
      | ok ts' => simpa [tokens?, ht] using hts
    cases hf : findOperand n (behindMarker s) ts with
    | none =>
      simp only [hf] at h
      cases h
    | some found =>
      obtain ⟨p, quote⟩ := found
      simp only [hf] at h
      obtain ⟨run, ho, -⟩ := bind_eq_ok_iff.mp h
      exact ⟨ts, p, quote, run, ht, hf, ho⟩

theorem rewrites_of_renameOperand (hm : hasMarker s) (h : renameOperand s n x = .ok (some s')) :
    Rewrites s n x s' := by
  obtain ⟨ts, p, quote, run, ht, hf, ho⟩ := renameOperand_some h
  rw [renameOperand_eq ht hf ho] at h
  obtain rfl := Option.some.inj (Except.ok.inj h)
  obtain ⟨before, t, after, rfl, hb, hn, rfl, hquote⟩ := exists_of_findOperand hf
  -- an operand is not the end mark, so another token follows it
  have hafter : after ≠ [] := by
    rintro rfl
    obtain ⟨ts, q, hshape, -⟩ := Cursor.tokens_shape (Cursor.start (behindMarker s)) ht
    obtain ⟨-, hlast⟩ := List.append_inj' hshape rfl
    rw [(List.cons.inj hlast).1] at hn
    cases hn
  obtain ⟨front, run', rest, hcs, -, hscan, hposition, -⟩ :=
    Cursor.tokens_around (c := Cursor.start (behindMarker s)) ht hafter
  have hposition : t.position = front.length := hposition.trans (Nat.zero_add _)
  obtain ⟨rfl, hlexeme, -, -⟩ := run_of_operand hcs hn hposition hscan hquote
  obtain ⟨quote', hquotes, rfl⟩ := quotes_of_operandText ho
  obtain ⟨blanks, hblanks, hs⟩ := hasMarker_iff.mp hm
  have hcs : behindMarker s = front ++ (spell n quote ++ rest) := hcs
  rw [hcs] at hs
  rw [hposition, renamedText_eq hblanks hs]
  rw [hcs] at ht
  exact .operand hblanks hs ht hb hlexeme hposition hquotes

theorem Rewrites.eq_some {renamed : Option String} (h : Rewrites s n x s')
    (hr : renameOperand s n x = .ok renamed) : renamed = some s' := by
  cases h with
  | @operand blanks front rest before after t quote quote' hblanks hs ht hb hl hp hq =>
    have hbehind := behindMarker_of_blanks hblanks hs
    have hn : t.lexeme.isNamed n := by
      rw [hl, Lexeme.isNamed_ofName]
      simp
    have hquote : quote = if t.lexeme = .name n then none else (behindMarker s)[t.position]? := by
      rw [hl, hbehind, hp]
      cases quote <;> simp [Lexeme.ofName, spell]
    rw [← hbehind] at ht
    have hf : findOperand n (behindMarker s) (before ++ t :: after) = some (front.length, quote) := by
      rw [findOperand_append hb hn, ← hquote, hp]
    cases ho : operandText x quote with
    | error failure =>
      obtain ⟨rfl, rfl, hlong⟩ := operandText_eq_error_iff.mp ho
      rw [renameOperand_eq_error_iff.mpr ⟨rfl, .inName ht hf hlong⟩] at hr
      cases hr
    | ok run =>
      rw [renameOperand_eq ht hf ho, renamedText_eq hblanks hs] at hr
      obtain ⟨q, hq', rfl⟩ := quotes_of_operandText ho
      obtain rfl := hq.unique hq'
      exact (Except.ok.inj hr).symm

/-- **How an operand is renamed**, where nothing is too long. -/
theorem rewrites_iff {renamed : Option String} (hm : hasMarker s)
    (hr : renameOperand s n x = .ok renamed) : Rewrites s n x s' ↔ renamed = some s' := by
  refine ⟨fun h => h.eq_some hr, ?_⟩
  rintro rfl
  exact rewrites_of_renameOperand hm hr

/-! ### Values -/

/-- A text that the entry of `n` changes, and what it becomes. -/
inductive Renames (m : Mapping) (s : String) : String → String → Prop
  | whole {e : String} : m.get? s = some e → Renames m s s e
  | operand {e s' : String} : m.get? s = none → hasMarker s → isClosed s = false →
    m.get? (subject s) = some e → Rewrites s (subject s) e s' → Renames m s (subject s) s'

mutual

/-- What a table makes of a value, and the names whose entries changed a key or a text in it. -/
inductive Changes (m : Mapping) : Value → Value → List String → Prop
  | renamed {s n s' : String} : m.Renames s n s' → Changes m (.text s) (.text s') [n]
  | same {s : String} : (∀ n s', ¬ m.Renames s n s') → Changes m (.text s) (.text s) []
  | scalar {s : Scalar} : (∀ t, s ≠ .text t) → Changes m (.scalar s) (.scalar s) []
  | list {vs ws : List Value} {used : List String} : ChangesItems m vs ws used →
    Changes m (.list vs) (.list ws) used
  | dict {es fs : List (Key × Value)} {used : List String} : ChangesEntries m es fs used →
    Changes m (.dict es) (.dict (Entries.putAll [] fs)) used

/-- `Changes` on list items. -/
inductive ChangesItems (m : Mapping) : List Value → List Value → List String → Prop
  | nil : ChangesItems m [] [] []
  | cons {v w : Value} {vs ws : List Value} {used more : List String} : Changes m v w used →
    ChangesItems m vs ws more → ChangesItems m (v :: vs) (w :: ws) (used ++ more)

/-- `Changes` on entries; a key that is an internal name changes too. -/
inductive ChangesEntries (m : Mapping) :
    List (Key × Value) → List (Key × Value) → List String → Prop
  | nil : ChangesEntries m [] [] []
  | renamed {n e : String} {v w : Value} {es fs : List (Key × Value)} {used more : List String} :
    m.get? n = some e → Changes m v w used → ChangesEntries m es fs more →
      ChangesEntries m ((.text n, v) :: es) ((.text e, w) :: fs) (n :: used ++ more)
  | same {k : Key} {v w : Value} {es fs : List (Key × Value)} {used more : List String} :
    (∀ n, k = .text n → m.get? n = none) → Changes m v w used → ChangesEntries m es fs more →
      ChangesEntries m ((k, v) :: es) ((k, w) :: fs) (used ++ more)

end

/-- **What becomes of a text** that can be mapped. -/
theorem changes_text_iff (h : m.mapText s = .ok (w, used)) :
    m.Changes (.text s) w' used' ↔ w' = w ∧ used' = used := by
  cases textMapped_of_ok h with
  | whole hs =>
    constructor
    · intro hc
      cases hc with
      | renamed hr =>
        cases hr with
        | whole hs' =>
          obtain rfl := Option.some.inj (hs.symm.trans hs')
          exact ⟨rfl, rfl⟩
        | operand hnone => exact absurd (hnone.symm.trans hs) (by simp)
      | same hsame => exact absurd (.whole hs) (hsame _ _)
      | scalar hne => exact absurd rfl (hne s)
    · rintro ⟨rfl, rfl⟩
      exact .renamed (.whole hs)
  | operand hs hm hopen hx hrename =>
    have hrewrites : ∀ s', Rewrites s (subject s) _ s' ↔ some _ = some s' := fun _ => rewrites_iff hm hrename
    constructor
    · intro hc
      cases hc with
      | renamed hr =>
        cases hr with
        | whole hs' => exact absurd (hs.symm.trans hs') (by simp)
        | operand _ _ _ hx' hr =>
          obtain rfl := Option.some.inj (hx.symm.trans hx')
          obtain rfl := Option.some.inj ((hrewrites _).mp hr)
          exact ⟨rfl, rfl⟩
      | same hsame => exact absurd (.operand hs hm hopen hx ((hrewrites _).mpr rfl)) (hsame _ _)
      | scalar hne => exact absurd rfl (hne s)
    · rintro ⟨rfl, rfl⟩
      exact .renamed (.operand hs hm hopen hx ((hrewrites _).mpr rfl))
  | same hs hclosed hopen =>
    have hsame : ∀ n s', ¬ m.Renames s n s' := by
      intro n s' hr
      cases hr with
      | whole hs' => exact absurd (hs.symm.trans hs') (by simp)
      | operand _ hm ho hx hr => exact absurd (hr.eq_some (hopen hm ho _ hx)) (by simp)
    constructor
    · intro hc
      cases hc with
      | renamed hr => exact absurd hr (hsame _ _)
      | same => exact ⟨rfl, rfl⟩
      | scalar => exact ⟨rfl, rfl⟩
    · rintro ⟨rfl, rfl⟩
      exact .same hsame

mutual

/-- **What becomes of a value** that can be mapped, and what is consumed for it. -/
theorem changes_iff_of_mapValue : ∀ {v w w' : Value} {used used' : List String},
    m.mapValue v = .ok (w, used) → (m.Changes v w' used' ↔ w' = w ∧ used' = used)
  | .scalar s, w, w', used, used', h => by
    cases s with
    | text s =>
      rw [mapValue] at h
      exact changes_text_iff h
    | _ =>
      obtain ⟨rfl, rfl⟩ := Prod.mk.inj (Except.ok.inj h)
      constructor
      · intro hc
        cases hc
        exact ⟨rfl, rfl⟩
      · rintro ⟨rfl, rfl⟩
        exact .scalar (by simp)
  | .list vs, w, w', used, used', h => by
    rw [mapValue_list] at h
    obtain ⟨⟨ws, us⟩, hvs, hw⟩ := map_eq_ok_iff.mp h
    obtain ⟨rfl, rfl⟩ := Prod.mk.inj hw
    have hitems : ∀ ws' used', m.ChangesItems vs ws' used' ↔ ws' = ws ∧ used' = used :=
      fun _ _ => changesItems_iff_of_mapItems hvs
    constructor
    · intro hc
      cases hc with
      | list hc =>
        obtain ⟨rfl, rfl⟩ := (hitems _ _).mp hc
        exact ⟨rfl, rfl⟩
    · rintro ⟨rfl, rfl⟩
      exact .list ((hitems _ _).mpr ⟨rfl, rfl⟩)
  | .dict es, w, w', used, used', h => by
    rw [mapValue_dict] at h
    obtain ⟨⟨fs, us⟩, hes, hw⟩ := map_eq_ok_iff.mp h
    obtain ⟨rfl, rfl⟩ := Prod.mk.inj hw
    have hentries : ∀ fs' used', m.ChangesEntries es fs' used' ↔ fs' = fs ∧ used' = used :=
      fun _ _ => changesEntries_iff_of_mapEntries hes
    constructor
    · intro hc
      cases hc with
      | dict hc =>
        obtain ⟨rfl, rfl⟩ := (hentries _ _).mp hc
        exact ⟨rfl, rfl⟩
    · rintro ⟨rfl, rfl⟩
      exact .dict ((hentries _ _).mpr ⟨rfl, rfl⟩)

theorem changesItems_iff_of_mapItems : ∀ {vs ws ws' : List Value} {used used' : List String},
    m.mapItems vs = .ok (ws, used) → (m.ChangesItems vs ws' used' ↔ ws' = ws ∧ used' = used)
  | [], ws, ws', used, used', h => by
    obtain ⟨rfl, rfl⟩ := Prod.mk.inj (Except.ok.inj h)
    constructor
    · intro hc
      cases hc
      exact ⟨rfl, rfl⟩
    · rintro ⟨rfl, rfl⟩
      exact .nil
  | v :: vs, ws, ws', used, used', h => by
    rw [mapItems_cons] at h
    obtain ⟨w, us, rest, more, hv, hvs, rfl, rfl⟩ := join_ok_iff.mp h
    constructor
    · intro hc
      cases hc with
      | cons hc hrest =>
        obtain ⟨rfl, rfl⟩ := (changes_iff_of_mapValue hv).mp hc
        obtain ⟨rfl, rfl⟩ := (changesItems_iff_of_mapItems hvs).mp hrest
        exact ⟨rfl, rfl⟩
    · rintro ⟨rfl, rfl⟩
      exact .cons ((changes_iff_of_mapValue hv).mpr ⟨rfl, rfl⟩)
        ((changesItems_iff_of_mapItems hvs).mpr ⟨rfl, rfl⟩)

theorem changesEntries_iff_of_mapEntries : ∀ {es fs fs' : List (Key × Value)} {used used' : List String},
    m.mapEntries es = .ok (fs, used) → (m.ChangesEntries es fs' used' ↔ fs' = fs ∧ used' = used)
  | [], fs, fs', used, used', h => by
    obtain ⟨rfl, rfl⟩ := Prod.mk.inj (Except.ok.inj h)
    constructor
    · intro hc
      cases hc
      exact ⟨rfl, rfl⟩
    · rintro ⟨rfl, rfl⟩
      exact .nil
  | (k, v) :: es, fs, fs', used, used', h => by
    rw [mapEntries_cons] at h
    obtain ⟨entry, _, rest, more, hentry, hes, rfl, rfl⟩ := join_ok_iff.mp h
    obtain ⟨k', named, w, us, hkey, hv, rfl, rfl⟩ := join_ok_iff.mp hentry
    have hkey := Except.ok.inj hkey
    have hvalue : ∀ w' used', m.Changes v w' used' ↔ w' = w ∧ used' = us :=
      fun _ _ => changes_iff_of_mapValue hv
    have hrest : ∀ fs' used', m.ChangesEntries es fs' used' ↔ fs' = rest ∧ used' = more :=
      fun _ _ => changesEntries_iff_of_mapEntries hes
    rcases mapKey_cases m k with ⟨hnone, hk⟩ | ⟨n, e, rfl, he, hk⟩
    · obtain ⟨rfl, rfl⟩ := Prod.mk.inj (hk.symm.trans hkey)
      have hkept : ∀ n, k = .text n → m.get? n = none := by
        rintro n rfl
        exact hnone
      constructor
      · intro hc
        cases hc with
        | renamed hn => exact absurd ((hkept _ rfl).symm.trans hn) (by simp)
        | same _ hc hcs =>
          obtain ⟨rfl, rfl⟩ := (hvalue _ _).mp hc
          obtain ⟨rfl, rfl⟩ := (hrest _ _).mp hcs
          exact ⟨rfl, rfl⟩
      · rintro ⟨rfl, rfl⟩
        exact .same hkept ((hvalue _ _).mpr ⟨rfl, rfl⟩) ((hrest _ _).mpr ⟨rfl, rfl⟩)
    · obtain ⟨rfl, rfl⟩ := Prod.mk.inj (hk.symm.trans hkey)
      constructor
      · intro hc
        cases hc with
        | renamed hn hc hcs =>
          obtain rfl := Option.some.inj (he.symm.trans hn)
          obtain ⟨rfl, rfl⟩ := (hvalue _ _).mp hc
          obtain ⟨rfl, rfl⟩ := (hrest _ _).mp hcs
          exact ⟨rfl, rfl⟩
        | same hkept => exact absurd ((hkept n rfl).symm.trans he) (by simp)
      · rintro ⟨rfl, rfl⟩
        exact .renamed he ((hvalue _ _).mpr ⟨rfl, rfl⟩) ((hrest _ _).mpr ⟨rfl, rfl⟩)

end

/-! ### Config records -/

variable {config mapped mapped' : Record}

/-- `Changes` on config records; a table without entries changes nothing. -/
inductive ChangesRecord (m : Mapping) (config : Record) : Record → List String → Prop
  | empty : m.isEmpty → ChangesRecord m config config []
  | table {mapped : Record} {used : List String} : m.isEmpty = false →
    m.Changes (.ofRecord config) (.ofRecord mapped) used → ChangesRecord m config mapped used

/-- **What becomes of a config** that can be mapped, and what is left of the table: the names are gone by whose
entries the config was changed. -/
theorem changesRecord_of_mapRecord (h : m.mapRecord config = .ok (mapped, left)) :
    ∃ used, left = m.eraseAll used ∧ used ⊆ m.keys ∧
      ∀ mapped' used', m.ChangesRecord config mapped' used' ↔ mapped' = mapped ∧ used' = used := by
  rcases mapRecord_cases h with ⟨hempty, rfl, rfl⟩ | ⟨hempty, fs, used, hes, rfl, rfl⟩
  · refine ⟨[], (Fields.eraseAll_nil left).symm, List.nil_subset _, fun mapped' used' => ?_⟩
    constructor
    · intro hc
      cases hc with
      | empty => exact ⟨rfl, rfl⟩
      | table hne => exact absurd (hempty.symm.trans hne) (by simp)
    · rintro ⟨rfl, rfl⟩
      exact .empty hempty
  · refine ⟨used, rfl, subset_keys_of_mapEntries hes, fun mapped' used' => ?_⟩
    have hvalue : ∀ w', m.Changes (.ofRecord config) w' used' ↔
        w' = .dict (Entries.putAll [] fs) ∧ used' = used :=
      fun _ => changes_iff_of_mapValue (mapValue_ofRecord hes)
    constructor
    · intro hc
      cases hc with
      | empty hne => exact absurd (hne.symm.trans hempty) (by simp)
      | table _ hc =>
        obtain ⟨hmapped, rfl⟩ := (hvalue _).mp hc
        exact ⟨Fields.ext (Value.dict.inj hmapped), rfl⟩
    · rintro ⟨rfl, rfl⟩
      exact .table hempty ((hvalue _).mpr ⟨rfl, rfl⟩)

end Mapping

end RowPipeline
