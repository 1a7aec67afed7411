import RowPipeline.Mapping
import RowPipeline.Proofs.Fields

/-!
# Rows under a table

On the way in a row gets a copy of each external field under its internal name, over a field of its own
that has this name (`get?_mapInput`); new names come behind the others (`keys_mapInput`). On the way out
internal names become external ones, and of several fields that get the same name the last one gives its
value (`get?_mapOutput`).

A field that was changed in between meets the copy that it was made from. If each internal name has its
own external name (`Injective`), then the change comes out unless the row has a field of its own under
the internal name, before the external one (`get?_mapOutput_insert`).
-/

namespace RowPipeline

namespace Mapping

variable {m : Mapping} {row : Record} {k : Key} {n e : String} {v : Value}

/-! ### Internal names -/

/-- The copies that a row gets: the value of each external field under its internal name. -/
def copies (row : Record) (es : List (String × String)) : List (Key × Value) :=
  es.filterMap fun e => (row.get? (.text e.2)).map (Prod.mk (Scalar.text e.1))

theorem copies_cons_of_none {es : List (String × String)} (h : row.get? (.text e) = none) :
    copies row ((n, e) :: es) = copies row es := by
  simp [copies, h]

theorem copies_cons_of_some {es : List (String × String)} (h : row.get? (.text e) = some v) :
    copies row ((n, e) :: es) = (.text n, v) :: copies row es := by
  simp [copies, h]

theorem addInternal_eq (row done : Record) (es : List (String × String)) :
    addInternal row done es = done.insertAll (copies row es) := by
  induction es generalizing done with
  | nil => rfl
  | cons entry es ih =>
    rw [addInternal]
    cases hv : row.get? (.text entry.2) with
    | none => rw [copies_cons_of_none hv, ← ih done]
    | some v =>
      rw [copies_cons_of_some hv]
      exact ih (done.insert (.text entry.1) v)

/-- The names of the copies are internal names of the table, in its order. -/
theorem keys_copies_sublist (row : Record) (es : List (String × String)) :
    (Entries.keys (copies row es)).Sublist ((Entries.keys es).map Scalar.text) := by
  induction es with
  | nil => exact List.Sublist.slnil
  | cons entry es ih =>
    cases hv : row.get? (.text entry.2) with
    | none =>
      rw [copies_cons_of_none hv]
      exact ih.cons _
    | some v =>
      rw [copies_cons_of_some hv]
      exact ih.cons_cons _

theorem nodup_keys_copies (m : Mapping) (row : Record) :
    (Entries.keys (copies row m.entries)).Nodup :=
  (keys_copies_sublist row m.entries).nodup (m.nodup.map fun _ _ h => Scalar.text.inj h)

theorem get?_copies_text {es : List (String × String)} (hn : (Entries.keys es).Nodup) :
    Entries.get? (.text n) (copies row es) = (Entries.get? n es).bind fun e => row.get? (.text e) := by
  induction es with
  | nil => rfl
  | cons entry es ih =>
    obtain ⟨hmem, hn⟩ := List.nodup_cons.mp hn
    have ih := ih hn
    by_cases hk : entry.1 = n
    · subst hk
      rw [Entries.get?_eq_none_iff.mpr hmem, Option.bind_none] at ih
      cases hv : row.get? (.text entry.2) with
      | none => rw [copies_cons_of_none hv, ih, Entries.get?, if_pos rfl, Option.bind_some, hv]
      | some v => simp [copies_cons_of_some hv, Entries.get?, hv]
    · have hk' : Scalar.text entry.1 ≠ .text n := fun he => hk (Scalar.text.inj he)
      cases hv : row.get? (.text entry.2) with
      | none => rw [copies_cons_of_none hv, ih, Entries.get?, if_neg hk]
      | some v => rw [copies_cons_of_some hv, Entries.get?, if_neg hk', ih, Entries.get?, if_neg hk]

theorem get?_copies (m : Mapping) (row : Record) (k : Key) :
    Entries.get? k (copies row m.entries) = (m.external? k).bind fun e => row.get? (.text e) := by
  by_cases hk : ∃ n, k = .text n
  · obtain ⟨n, rfl⟩ := hk
    exact get?_copies_text m.nodup
  · have hnone : m.external? k = none := by
      cases k with
      | text n => exact absurd ⟨n, rfl⟩ hk
      | _ => rfl
    rw [hnone, Option.bind_none, Entries.get?_eq_none_iff]
    intro hmem
    obtain ⟨n, -, rfl⟩ := List.mem_map.mp ((keys_copies_sublist row m.entries).subset hmem)
    exact hk ⟨n, rfl⟩

/-- **A row with its internal names**: these come first, whatever fields the row has. -/
theorem get?_mapInput (m : Mapping) (row : Record) (k : Key) : (m.mapInput row).get? k =
    ((m.external? k).bind fun e => row.get? (.text e)).or (row.get? k) := by
  rw [mapInput, addInternal_eq, Fields.get?_insertAll, Entries.get?_reverse (nodup_keys_copies m row),
    get?_copies]

theorem keys_mapInput (m : Mapping) (row : Record) : (m.mapInput row).keys =
    row.keys ++ (Entries.keys (copies row m.entries)).filter (· ∉ row.keys) := by
  rw [mapInput, addInternal_eq]
  exact Entries.keys_putAll (nodup_keys_copies m row) row.entries

/-- A row laid under its own mapped form is the mapped form. -/
theorem merge_mapInput (m : Mapping) (row : Record) : row.merge (m.mapInput row) = m.mapInput row := by
  refine Fields.ext_get? ?_ fun k => ?_
  · have hnil : row.keys.filter (· ∉ row.keys) = [] :=
      List.filter_eq_nil_iff.mpr fun k hk => by simpa using hk
    rw [Fields.keys_merge, keys_mapInput, List.filter_append, hnil, List.nil_append,
      List.filter_filter]
    simp
  · rw [Fields.get?_merge, get?_mapInput, Option.or_assoc, Option.or_self]

/-! ### External names -/

/-- Each internal name has its own external name. -/
def Injective (m : Mapping) : Prop := ∀ n n' e, m.get? n = some e → m.get? n' = some e → n = n'

theorem injective_of_one (n e : String) : Injective (Fields.insert ∅ n e) := by
  have key : ∀ n' e', (Fields.insert ∅ n e : Mapping).get? n' = some e' → n = n' := by
    intro n' e' h
    by_contra hne
    rw [Fields.get?_insert, if_neg hne] at h
    cases h
  exact fun n₁ n₂ e' h h' => (key n₁ e' h).symm.trans (key n₂ e' h')

/-- A field under an internal name leaves no trace. -/
theorem removeMapped_insert (h : m.get? n = some e) (row : Record) (v : Value) :
    m.removeMapped (row.insert (.text n) v) = m.removeMapped row := by
  have hname : ¬ (m.external? (.text n)).isNone := by simp [external?, h]
  have hentries := (Entries.filter_put (fun k => (m.external? k).isNone) (.text n) v row.entries).trans
    (if_neg hname)
  unfold removeMapped Fields.filter Fields.insert
  congr 1

theorem rename_of_some (h : m.get? n = some e) : m.rename (.text n) = .text e := by
  rw [rename, external?, h]

theorem rename_of_none (h : m.external? k = none) : m.rename k = k := by
  rw [rename, h]

/-- The fields that get an external name: the one of its internal name, and the one that has this name
already, unless that is an internal name too. -/
theorem rename_eq_iff (hm : m.Injective) (hn : m.get? n = some e) :
    m.rename k = .text e ↔ k = .text n ∨ m.get? e = none ∧ k = .text e := by
  constructor
  · intro h
    cases hk : m.external? k with
    | none =>
      obtain rfl : k = .text e := (rename_of_none hk).symm.trans h
      exact Or.inr ⟨hk, rfl⟩
    | some e' =>
      cases k with
      | text n' =>
        rw [rename_of_some hk] at h
        obtain rfl := Scalar.text.inj h
        exact Or.inl (congrArg Scalar.text (hm n' n e' hk hn))
      | _ => cases hk
  · rintro (rfl | ⟨hnone, rfl⟩)
    · exact rename_of_some hn
    · exact rename_of_none hnone

/-- **The last field that gets a name gives its value.** -/
theorem get?_mapOutput {out : Record} {as bs : List (Key × Value)} {k' : Key}
    (hout : out.entries = as ++ (k', v) :: bs) (hk : m.rename k' = k)
    (hlast : ∀ entry ∈ bs, m.rename entry.1 ≠ k) : (m.mapOutput out).get? k = some v := by
  have hnone : Entries.get? k (bs.map fun entry => (m.rename entry.1, entry.2)).reverse = none := by
    rw [Entries.get?_eq_none_iff]
    intro hmem
    obtain ⟨entry, hentry, rfl⟩ := List.mem_map.mp hmem
    obtain ⟨entry', hentry', rfl⟩ := List.mem_map.mp (List.mem_reverse.mp hentry)
    exact hlast entry' hentry' rfl
  have hself : Entries.get? k ((as ++ (k', v) :: bs).map fun entry =>
      (m.rename entry.1, entry.2)).reverse = some v := by
    rw [List.map_append, List.map_cons, List.reverse_append, List.reverse_cons, List.append_assoc,
      Entries.get?_append, hnone, Option.none_or, List.singleton_append, Entries.get?, if_pos hk]
  rw [mapOutput, Fields.get?_ofList, hout]
  exact hself

section Order

variable {α : Type} {a b : α} {as bs : List α}

theorem pair_sublist_append (h : b ∉ bs) : [a, b].Sublist (as ++ bs) ↔ [a, b].Sublist as := by
  refine ⟨fun hsub => ?_, fun hsub => hsub.trans (List.sublist_append_left as bs)⟩
  obtain ⟨l, l', he, hl, hl'⟩ := List.sublist_append_iff.mp hsub
  rcases List.eq_nil_or_concat l' with rfl | ⟨r, c, rfl⟩
  · rw [List.append_nil] at he
    rwa [he]
  · have hlast : b = c := by
      have := congrArg List.getLast? he
      simpa using this
    exact absurd (hl'.subset (by simp [hlast])) h

end Order

/-- Where an external field of a row comes after an internal one. -/
theorem pair_sublist_keys (he : row.contains (.text e)) :
    [k, .text e].Sublist (m.mapInput row).keys ↔ [k, .text e].Sublist row.keys := by
  have hmem : Scalar.text e ∈ row.keys := by
    obtain ⟨w, hw⟩ := Option.isSome_iff_exists.mp he
    exact Fields.mem_keys_of_get? hw
  rw [keys_mapInput]
  refine pair_sublist_append fun h => ?_
  simpa [hmem] using (List.mem_filter.mp h).2

/-- The fields of a changed row around the changed one: those behind it are fields of the mapped row, and
an external field is among them iff it comes later in the row. -/
theorem exists_split (hn : m.get? n = some e) (he : row.contains (.text e)) (v : Value) : ∃ as bs,
    ((m.mapInput row).insert (.text n) v).entries = as ++ (.text n, v) :: bs ∧
      Scalar.text n ∉ Entries.keys bs ∧ (Entries.keys bs).Nodup ∧
      (∀ entry ∈ bs, (m.mapInput row).get? entry.1 = some entry.2) ∧
      ([Scalar.text n, .text e].Sublist row.keys ↔ Scalar.text e ∈ Entries.keys bs) := by
  obtain ⟨w, hw⟩ := Option.isSome_iff_exists.mp he
  have hinner : (m.mapInput row).get? (.text n) = some w := by
    rw [get?_mapInput, external?, hn, Option.bind_some, hw]
    rfl
  obtain ⟨as, bs, hsplit⟩ := List.append_of_mem (Entries.mem_of_get? hinner)
  have hnodup := (m.mapInput row).nodup
  rw [hsplit] at hnodup
  obtain ⟨has, hbs, hnodup'⟩ := Entries.not_mem_of_nodup_middle hnodup
  refine ⟨as, bs, ?_, hbs, hnodup', fun entry hentry => ?_, ?_⟩
  · change Entries.put _ _ (m.mapInput row).entries = _
    rw [hsplit, Entries.put_middle has]
  · refine Entries.get?_of_mem (m.mapInput row).nodup ?_
    rw [hsplit]
    exact List.mem_append_right _ (List.mem_cons_of_mem _ hentry)
  · rw [Entries.keys_middle] at hnodup
    rw [← pair_sublist_keys (m := m) he, Fields.keys, hsplit, Entries.keys_middle,
      pair_sublist_iff hnodup]

/-- **What becomes of a changed field.** A field that is changed under its internal name leaves under its
external name, unless the row has a field of its own under the internal name, before the external one:
then the value that the row had comes out. -/
theorem get?_mapOutput_insert (hm : m.Injective) (hn : m.get? n = some e)
    (he : row.contains (.text e)) (v : Value) :
    (m.mapOutput ((m.mapInput row).insert (.text n) v)).get? (.text e) =
      if m.get? e = none ∧ [Scalar.text n, .text e].Sublist row.keys then row.get? (.text e)
      else some v := by
  obtain ⟨as, bs, hout, hbs, hnodup, hget, horder⟩ := exists_split hn he v
  split
  · rename_i hlost
    obtain ⟨hnone, hmem⟩ := hlost
    obtain ⟨⟨k, u⟩, hentry, rfl⟩ := List.mem_map.mp (horder.mp hmem)
    -- the row's own field is the last one with the external name, and it holds what it held
    have hu := hget _ hentry
    rw [get?_mapInput, external?, hnone, Option.bind_none, Option.none_or] at hu
    rw [hu]
    obtain ⟨bs, bs', rfl⟩ := List.append_of_mem hentry
    rw [← List.cons_append, ← List.append_assoc] at hout
    refine get?_mapOutput hout (rename_of_none hnone) fun entry hentry' hrename => ?_
    rcases (rename_eq_iff hm hn).mp hrename with hk | ⟨-, hk⟩
    · exact hbs (hk ▸ List.mem_map_of_mem (List.mem_append_right _ (List.mem_cons_of_mem _ hentry')))
    · exact (Entries.not_mem_of_nodup_middle hnodup).2.1 (hk ▸ List.mem_map_of_mem hentry')
  · rename_i hkept
    refine get?_mapOutput hout (rename_of_some hn) fun entry hentry hrename => ?_
    rcases (rename_eq_iff hm hn).mp hrename with hk | ⟨hnone, hk⟩
    · exact hbs (hk ▸ List.mem_map_of_mem hentry)
    · exact hkept ⟨hnone, horder.mpr (hk ▸ List.mem_map_of_mem hentry)⟩

end Mapping

end RowPipeline
