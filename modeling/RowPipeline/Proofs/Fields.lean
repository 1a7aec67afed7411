import Mathlib.Data.List.Nodup
import RowPipeline.Fields

/-!
# Entries of ordered tables

What a look-up answers in entry lists that are put together, mapped or permuted, and what setting and
removing an entry do to the list. A look-up among distinct names finds the entries of the list
(`get?_eq_some_iff_mem`), so their order does not matter (`get?_perm`).

Of several entries that are set one after the other the last one stands (`get?_putAll`); new names come
behind those that are there (`keys_putAll`), and entries that are there already change nothing
(`putAll_of_get?`). A table is known by its names in order and what it answers to each of them
(`Fields.ext_get?`), so overlays can be put together in any grouping (`Fields.merge_assoc`).
-/

namespace RowPipeline

/-- Where a name stands once, another one comes later iff it stands in what follows. -/
theorem pair_sublist_iff {α : Type} {a b : α} {as bs : List α} (h : (as ++ a :: bs).Nodup) :
    [a, b].Sublist (as ++ a :: bs) ↔ b ∈ bs := by
  induction as with
  | nil => rw [List.nil_append, List.cons_sublist_cons, List.singleton_sublist]
  | cons c as ih =>
    obtain ⟨hc, h⟩ := List.nodup_cons.mp h
    rw [List.cons_append, List.sublist_cons_iff, ← ih h]
    refine ⟨fun hsub => hsub.resolve_right ?_, Or.inl⟩
    rintro ⟨r, he, -⟩
    obtain ⟨rfl, -⟩ := List.cons.inj he
    exact hc (by simp)

namespace Entries

variable {κ α : Type} [DecidableEq κ] {k : κ} {v w : α} {es fs : List (κ × α)}

theorem get?_append (k : κ) (es fs : List (κ × α)) :
    get? k (es ++ fs) = (get? k es).or (get? k fs) := by
  induction es with
  | nil => rfl
  | cons e es ih =>
    obtain ⟨k', v⟩ := e
    by_cases h : k' = k
    · simp [get?, h]
    · simp [get?, h, ih]

theorem mem_of_get? (h : get? k es = some v) : (k, v) ∈ es := by
  induction es with
  | nil => simp [get?] at h
  | cons e es ih =>
    obtain ⟨k', w⟩ := e
    by_cases hk : k' = k
    · obtain rfl : w = v := by simpa [get?, hk] using h
      simp [hk]
    · exact List.mem_cons_of_mem _ (ih (by simpa [get?, hk] using h))

theorem get?_of_mem (hn : (keys es).Nodup) (h : (k, v) ∈ es) : get? k es = some v := by
  induction es with
  | nil => simp at h
  | cons e es ih =>
    obtain ⟨k', w⟩ := e
    obtain ⟨hk', hn⟩ := List.nodup_cons.mp hn
    rcases List.mem_cons.mp h with he | h
    · obtain ⟨rfl, rfl⟩ := Prod.mk.inj he
      simp [get?]
    · have hmem : k ∈ keys es := List.mem_map_of_mem (f := Prod.fst) h
      have hne : k' ≠ k := fun he => hk' (he ▸ hmem)
      simp [get?, hne, ih hn h]

theorem get?_eq_some_iff_mem (hn : (keys es).Nodup) : get? k es = some v ↔ (k, v) ∈ es :=
  ⟨mem_of_get?, get?_of_mem hn⟩

/-- **The order of the entries does not matter.** -/
theorem get?_perm (hn : (keys es).Nodup) (h : fs.Perm es) (k : κ) : get? k fs = get? k es := by
  have hn' : (keys fs).Nodup := (h.map Prod.fst).nodup_iff.mpr hn
  refine Option.ext fun v => ?_
  rw [get?_eq_some_iff_mem hn, get?_eq_some_iff_mem hn', h.mem_iff]

/-- What is under a name after each entry was changed or left out. -/
theorem get?_filterMap {β : Type} {g : κ × α → Option (κ × β)}
    (hg : ∀ e e', g e = some e' → e'.1 = e.1) (hn : (keys es).Nodup) (k : κ) :
    get? k (es.filterMap g) = (get? k es).bind fun v => (g (k, v)).map Prod.snd := by
  induction es with
  | nil => rfl
  | cons e es ih =>
    obtain ⟨k', v⟩ := e
    obtain ⟨hk', hn⟩ := List.nodup_cons.mp hn
    have ih := ih hn
    by_cases hk : k' = k
    · subst hk
      rw [get?_eq_none_iff.mpr hk', Option.bind_none] at ih
      rcases hv : g (k', v) with _ | ⟨k'', w⟩
      · simp [hv, ih, get?]
      · obtain rfl : k'' = k' := hg _ _ hv
        simp [hv, get?]
    · rcases hv : g (k', v) with _ | ⟨k'', w⟩
      · simp [hv, ih, get?, hk]
      · obtain rfl : k'' = k' := hg _ _ hv
        simp [hv, ih, get?, hk]

omit [DecidableEq κ] in
theorem nodup_keys_append : (keys (es ++ fs)).Nodup ↔
    (keys es).Nodup ∧ (keys fs).Nodup ∧ ∀ k ∈ keys es, k ∉ keys fs := by
  rw [keys, List.map_append, List.nodup_append']
  rfl

omit [DecidableEq κ] in
theorem keys_middle : keys (es ++ (k, v) :: fs) = keys es ++ k :: keys fs := by
  simp [keys]

omit [DecidableEq κ] in
theorem not_mem_of_nodup_middle (hn : (keys (es ++ (k, v) :: fs)).Nodup) :
    k ∉ keys es ∧ k ∉ keys fs ∧ (keys fs).Nodup := by
  obtain ⟨-, hn, hdisjoint⟩ := nodup_keys_append.mp hn
  obtain ⟨hmem, hn⟩ := List.nodup_cons.mp hn
  exact ⟨fun h => hdisjoint k h (by simp), hmem, hn⟩

theorem put_middle (h : k ∉ keys es) : put k v (es ++ (k, w) :: fs) = es ++ (k, v) :: fs := by
  induction es with
  | nil => simp [put]
  | cons e es ih =>
    obtain ⟨k', u⟩ := e
    simp only [keys_cons, List.mem_cons, not_or] at h
    simp [put, Ne.symm h.1, ih h.2]

theorem filter_middle (h : k ∉ keys es) (h' : k ∉ keys fs) :
    ((es ++ (k, w) :: fs).filter fun e => e.1 ≠ k) = es ++ fs := by
  have hes : es.filter (fun e => e.1 ≠ k) = es := List.filter_eq_self.mpr fun e he =>
    decide_eq_true fun hk => h (hk ▸ List.mem_map_of_mem he)
  have hfs : fs.filter (fun e => e.1 ≠ k) = fs := List.filter_eq_self.mpr fun e he =>
    decide_eq_true fun hk => h' (hk ▸ List.mem_map_of_mem he)
  rw [List.filter_append, List.filter_cons_of_neg (by simp), hes, hfs]

omit [DecidableEq κ] in
/-- Changing the entry of one name where every other entry is kept. -/
theorem filterMap_middle {f : κ × α → Option (κ × α)} (hf : ∀ e, e.1 ≠ k → f e = some e)
    (h : k ∉ keys es) (h' : k ∉ keys fs) :
    (es ++ (k, w) :: fs).filterMap f = es ++ ((f (k, w)).toList ++ fs) := by
  have hkeep : ∀ gs : List (κ × α), k ∉ keys gs → gs.filterMap f = gs := fun gs hgs =>
    (List.filterMap_congr fun e he => hf e fun hk => hgs (hk ▸ List.mem_map_of_mem he)).trans
      List.filterMap_some
  rw [List.filterMap_append, List.filterMap_cons, hkeep es h, hkeep fs h']
  cases f (k, w) <;> rfl

/-- A list of distinct names is known by its names and what it answers. -/
theorem eq_filterMap (hn : (keys es).Nodup) :
    es = (keys es).filterMap fun k => (get? k es).map (Prod.mk k) := by
  induction es with
  | nil => rfl
  | cons e es ih =>
    obtain ⟨hmem, hn⟩ := List.nodup_cons.mp hn
    have hself : get? e.1 (e :: es) = some e.2 := if_pos rfl
    have hrest : (keys es).filterMap (fun k => (get? k (e :: es)).map (Prod.mk k)) =
        (keys es).filterMap fun k => (get? k es).map (Prod.mk k) := by
      refine List.filterMap_congr fun k hk => ?_
      have hne : e.1 ≠ k := fun he => hmem (he ▸ hk)
      rw [get?, if_neg hne]
    rw [keys_cons, List.filterMap_cons, hself, hrest, ← ih hn]
    rfl

/-- Setting an entry among those whose names pass a test. -/
theorem filter_put (q : κ → Bool) (k : κ) (v : α) (es : List (κ × α)) :
    (put k v es).filter (fun e => q e.1) =
      if q k then put k v (es.filter fun e => q e.1) else es.filter fun e => q e.1 := by
  induction es with
  | nil => by_cases hq : q k <;> simp [put, hq]
  | cons e es ih =>
    obtain ⟨k', w⟩ := e
    by_cases hk : k' = k
    · subst hk
      by_cases hq : q k' <;> simp [put, hq]
    · by_cases hq : q k <;> by_cases hq' : q k' <;> simp [put, hk, hq, hq'] at ih ⊢ <;> exact ih

/-! ### Several entries -/

theorem get?_reverse (hn : (keys es).Nodup) (k : κ) : get? k es.reverse = get? k es :=
  get?_perm hn es.reverse_perm k

/-- **The last entry under a name stands.** -/
theorem get?_putAll (k : κ) (es new : List (κ × α)) :
    get? k (putAll es new) = (get? k new.reverse).or (get? k es) := by
  induction new generalizing es with
  | nil => rfl
  | cons e new ih =>
    have hstep : putAll es (e :: new) = putAll (put e.1 e.2 es) new := rfl
    rw [hstep, ih, List.reverse_cons, get?_append, get?_put]
    by_cases h : e.1 = k <;> cases get? k new.reverse <;> simp [get?, h]

/-- **New names come behind**, in their order. -/
theorem keys_putAll {new : List (κ × α)} (hn : (keys new).Nodup) (es : List (κ × α)) :
    keys (putAll es new) = keys es ++ (keys new).filter (· ∉ keys es) := by
  induction new generalizing es with
  | nil => simp [putAll]
  | cons e new ih =>
    obtain ⟨hmem, hn⟩ := List.nodup_cons.mp hn
    have hstep : putAll es (e :: new) = putAll (put e.1 e.2 es) new := rfl
    rw [hstep, ih hn, keys_put, keys_cons]
    by_cases h : e.1 ∈ keys es
    · rw [if_pos h, List.filter_cons_of_neg (by simpa using h)]
    · rw [if_neg h, List.filter_cons_of_pos (by simpa using h), List.append_assoc,
        List.singleton_append]
      congr 2
      refine List.filter_congr fun k hk => ?_
      have hne : k ≠ e.1 := fun he => hmem (he ▸ hk)
      simp [hne]

/-- Setting entries among those whose names pass a test. -/
theorem filter_putAll (q : κ → Bool) (es new : List (κ × α)) :
    (putAll es new).filter (fun e => q e.1) =
      putAll (es.filter fun e => q e.1) (new.filter fun e => q e.1) := by
  induction new generalizing es with
  | nil => rfl
  | cons e new ih =>
    have hstep : putAll es (e :: new) = putAll (put e.1 e.2 es) new := rfl
    rw [hstep, ih, filter_put]
    by_cases hq : q e.1
    · rw [if_pos hq, List.filter_cons_of_pos (by simpa using hq)]
      rfl
    · rw [if_neg hq, List.filter_cons_of_neg (by simpa using hq)]

/-- Setting a name to the value that it has changes nothing. -/
theorem put_of_get? (h : get? k es = some v) : put k v es = es := by
  induction es with
  | nil => simp [get?] at h
  | cons e es ih =>
    obtain ⟨k', w⟩ := e
    by_cases hk : k' = k
    · obtain rfl : w = v := by simpa [get?, hk] using h
      rw [put, if_pos hk]
    · have hrest : get? k es = some v := by simpa [get?, hk] using h
      rw [put, if_neg hk, ih hrest]

theorem putAll_of_get? {new : List (κ × α)} (h : ∀ e ∈ new, get? e.1 es = some e.2) :
    putAll es new = es := by
  induction new with
  | nil => rfl
  | cons e new ih =>
    obtain ⟨he, hnew⟩ := List.forall_mem_cons.mp h
    have hstep : putAll es (e :: new) = putAll (put e.1 e.2 es) new := rfl
    rw [hstep, put_of_get? he, ih hnew]

theorem put_of_not_mem (h : k ∉ keys es) : put k v es = es ++ [(k, v)] := by
  induction es with
  | nil => rfl
  | cons e es ih =>
    rw [keys_cons, List.mem_cons, not_or] at h
    rw [put, if_neg (Ne.symm h.1), ih h.2, List.cons_append]

/-- **New entries come behind**, in their order. -/
theorem putAll_of_nodup {new : List (κ × α)} (hn : (keys (es ++ new)).Nodup) :
    putAll es new = es ++ new := by
  induction new generalizing es with
  | nil => exact (List.append_nil es).symm
  | cons e new ih =>
    have hmem : e.1 ∉ keys es := (not_mem_of_nodup_middle (v := e.2) hn).1
    have hassoc : es ++ e :: new = es ++ [e] ++ new := by simp
    have hstep : putAll es (e :: new) = putAll (put e.1 e.2 es) new := rfl
    rw [hstep, put_of_not_mem hmem, ih (hassoc ▸ hn), ← hassoc]

end Entries

namespace Fields

variable {κ α : Type} [DecidableEq κ] {t u : Fields κ α} {k : κ}

theorem get?_insertAll (t : Fields κ α) (es : List (κ × α)) (k : κ) :
    (t.insertAll es).get? k = (Entries.get? k es.reverse).or (t.get? k) :=
  Entries.get?_putAll k t.entries es

theorem get?_ofList (es : List (κ × α)) (k : κ) : (ofList es).get? k = Entries.get? k es.reverse := by
  rw [ofList, get?_insertAll]
  exact Option.or_none

/-- The second table overlays the first. -/
theorem get?_merge (t u : Fields κ α) (k : κ) : (t.merge u).get? k = (u.get? k).or (t.get? k) := by
  rw [merge, get?_insertAll, Entries.get?_reverse u.nodup]
  rfl

theorem keys_merge (t u : Fields κ α) :
    (t.merge u).keys = t.keys ++ u.keys.filter (· ∉ t.keys) :=
  Entries.keys_putAll u.nodup t.entries

theorem get?_filter (p : κ → α → Bool) (t : Fields κ α) (k : κ) :
    (t.filter p).get? k = (t.get? k).filter (p k) := by
  have hmap : t.entries.filter (fun e => p e.1 e.2) =
      t.entries.filterMap fun e => if p e.1 e.2 then some e else none := by
    rw [← List.filterMap_eq_filter]
    rfl
  have hg : ∀ e e' : κ × α, (if p e.1 e.2 then some e else none) = some e' → e'.1 = e.1 := by
    intro e e' h
    split at h
    · rw [Option.some.inj h]
    · cases h
  change Entries.get? k (t.entries.filter fun e => p e.1 e.2) = _
  rw [hmap, Entries.get?_filterMap hg t.nodup]
  change (t.get? k).bind _ = _
  cases t.get? k with
  | none => rfl
  | some v => by_cases hp : p k v <;> simp [hp, Option.filter]

theorem get?_erase_of_ne (t : Fields κ α) {k k' : κ} (h : k' ≠ k) : (t.erase k).get? k' = t.get? k' := by
  rw [erase, get?_filter]
  cases t.get? k' with
  | none => rfl
  | some v => simp [h]

theorem get?_eraseAll (t : Fields κ α) (ks : List κ) (k : κ) :
    (t.eraseAll ks).get? k = if k ∈ ks then none else t.get? k := by
  rw [eraseAll, get?_filter]
  by_cases h : k ∈ ks <;> cases t.get? k <;> simp [h]

/-- What is left after names are removed stands in its order. -/
theorem eraseAll_sublist (t : Fields κ α) (ks : List κ) :
    (t.eraseAll ks).entries.Sublist t.entries :=
  List.filter_sublist

theorem eraseAll_nil (t : Fields κ α) : t.eraseAll [] = t := by
  refine ext ?_
  exact List.filter_eq_self.mpr fun e _ => by simp

theorem insertAll_append (t : Fields κ α) (es fs : List (κ × α)) :
    t.insertAll (es ++ fs) = (t.insertAll es).insertAll fs :=
  ext List.foldl_append

theorem ofList_entries (t : Fields κ α) : ofList t.entries = t :=
  ext (Entries.putAll_of_nodup t.nodup)

/-- Entries that a table has already change nothing. -/
theorem insertAll_of_get? {es : List (κ × α)} (h : ∀ e ∈ es, t.get? e.1 = some e.2) :
    t.insertAll es = t :=
  ext (Entries.putAll_of_get? h)

theorem merge_self (t : Fields κ α) : t.merge t = t :=
  insertAll_of_get? fun _ he => Entries.get?_of_mem t.nodup he

/-- **A table is known by its names in order and its answers.** -/
theorem ext_get? (hk : t.keys = u.keys) (hg : ∀ k, t.get? k = u.get? k) : t = u := by
  refine ext ?_
  rw [Entries.eq_filterMap t.nodup, Entries.eq_filterMap u.nodup]
  change t.keys.filterMap _ = u.keys.filterMap _
  rw [hk]
  refine List.filterMap_congr fun k _ => ?_
  exact congrArg (Option.map (Prod.mk k)) (hg k)

/-! ### Overlays -/

theorem empty_merge (t : Fields κ α) : (∅ : Fields κ α).merge t = t := ofList_entries t

theorem merge_empty (t : Fields κ α) : t.merge ∅ = t := rfl

theorem merge_assoc (t u v : Fields κ α) : (t.merge u).merge v = t.merge (u.merge v) := by
  refine ext_get? ?_ fun k => ?_
  · -- of the third table those names are new that neither of the others has
    have hnew : v.keys.filter (· ∉ t.keys ++ u.keys.filter (· ∉ t.keys)) =
        (v.keys.filter (· ∉ u.keys)).filter (· ∉ t.keys) := by
      rw [List.filter_filter]
      refine List.filter_congr fun k _ => ?_
      by_cases hk : k ∈ t.keys <;> simp [hk]
    rw [keys_merge, keys_merge, keys_merge, keys_merge, List.filter_append, hnew, List.append_assoc]
  · rw [get?_merge, get?_merge, get?_merge, get?_merge, Option.or_assoc]

end Fields

end RowPipeline
