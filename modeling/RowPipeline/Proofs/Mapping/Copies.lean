import RowPipeline.Proofs.Mapping.Rows

/-!
# Copies and their removal

A row comes from outside if no field of it has an internal name (`Mapping.Outside`). On such a row the two
ways back undo the way in: the copies are taken away again (`removeMapped_mapInput_eq_iff`), or each of
them is renamed to the external field that it was made from (`mapOutput_mapInput`).

Removal goes by the table alone and takes away every field with an internal name. So a row that has one of
its own does not come back, whether it was copied over or not (`removeMapped_mapInput_of_own_field`).
-/

namespace RowPipeline

namespace Mapping

variable {m : Mapping} {row : Record} {k : Key} {e : Key × Value}

/-- A row as it comes from outside: no field has an internal name. -/
def Outside (m : Mapping) (row : Record) : Prop := ∀ k ∈ row.keys, m.external? k = none

/-- A row stays one from outside where entries are taken out of the table. -/
theorem Outside.eraseAll (h : m.Outside row) (used : List String) :
    Outside (m.eraseAll used) row := by
  intro k hk
  have hnone := h k hk
  cases k with
  | text n =>
    change (m.eraseAll used).get? n = none
    rw [Fields.get?_eraseAll]
    split
    · rfl
    · exact hnone
  | _ => rfl

/-! ### Removal -/

theorem keys_removeMapped (m : Mapping) (row : Record) :
    (m.removeMapped row).keys = row.keys.filter fun k => (m.external? k).isNone := by
  change (row.entries.filter _).map Prod.fst = (row.entries.map Prod.fst).filter _
  rw [List.filter_map]
  rfl

theorem get?_removeMapped (m : Mapping) (row : Record) (k : Key) :
    (m.removeMapped row).get? k = if m.external? k = none then row.get? k else none := by
  rw [removeMapped, Fields.get?_filter]
  cases m.external? k <;> cases row.get? k <;> rfl

/-- Only a row from outside loses no field. -/
theorem removeMapped_eq_self_iff : m.removeMapped row = row ↔ m.Outside row := by
  constructor
  · intro h k hk
    rw [← h, keys_removeMapped] at hk
    exact Option.isNone_iff_eq_none.mp (List.mem_filter.mp hk).2
  · intro h
    refine Fields.ext (List.filter_eq_self.mpr fun e he => ?_)
    exact Option.isNone_iff_eq_none.mpr (h e.1 (List.mem_map_of_mem he))

/-! ### Copies -/

theorem external?_of_mem_copies (hk : k ∈ Entries.keys (copies row m.entries)) :
    m.external? k ≠ none := by
  obtain ⟨n, hn, rfl⟩ := List.mem_map.mp ((keys_copies_sublist row m.entries).subset hk)
  intro hnone
  exact Fields.get?_eq_none_iff.mp hnone hn

/-- A copy is made from the field that its name is renamed to. -/
theorem get?_of_mem_copies (he : e ∈ copies row m.entries) : row.get? (m.rename e.1) = some e.2 := by
  obtain ⟨⟨n, outer⟩, hmem, hcopy⟩ := List.mem_filterMap.mp he
  obtain ⟨v, hv, rfl⟩ := Option.map_eq_some_iff.mp hcopy
  have hn : m.get? n = some outer := Entries.get?_of_mem m.nodup hmem
  rw [rename_of_some hn]
  exact hv

/-- A row from outside keeps its entries, and the copies come behind them. -/
theorem entries_mapInput (h : m.Outside row) :
    (m.mapInput row).entries = row.entries ++ copies row m.entries := by
  have hn : (Entries.keys (row.entries ++ copies row m.entries)).Nodup :=
    Entries.nodup_keys_append.mpr ⟨row.nodup, nodup_keys_copies m row,
      fun k hk hcopy => external?_of_mem_copies hcopy (h k hk)⟩
  rw [mapInput, addInternal_eq]
  exact Entries.putAll_of_nodup hn

/-! ### In and out again -/

/-- What removal leaves does not depend on the copies. -/
theorem removeMapped_mapInput (m : Mapping) (row : Record) :
    m.removeMapped (m.mapInput row) = m.removeMapped row := by
  refine Fields.ext_get? ?_ fun k => ?_
  · have hcopies : ((Entries.keys (copies row m.entries)).filter (· ∉ row.keys)).filter
        (fun k => (m.external? k).isNone) = [] := by
      refine List.filter_eq_nil_iff.mpr fun k hk => ?_
      rw [Option.isNone_iff_eq_none]
      exact external?_of_mem_copies (List.mem_filter.mp hk).1
    rw [keys_removeMapped, keys_removeMapped, keys_mapInput, List.filter_append, hcopies,
      List.append_nil]
  · rw [get?_removeMapped, get?_removeMapped, get?_mapInput]
    split
    · rename_i hk
      rw [hk, Option.bind_none, Option.none_or]
    · rfl

/-- **Copies are renamed back** to the fields that they were made from. -/
theorem mapOutput_mapInput (h : m.Outside row) : m.mapOutput (m.mapInput row) = row := by
  have hrow : row.entries.map (fun e => (m.rename e.1, e.2)) = row.entries := by
    conv_rhs => rw [← List.map_id row.entries]
    refine List.map_congr_left fun e he => ?_
    rw [rename_of_none (h e.1 (List.mem_map_of_mem he))]
    rfl
  have hcopies : ∀ e ∈ (copies row m.entries).map fun e => (m.rename e.1, e.2),
      row.get? e.1 = some e.2 := by
    intro e he
    obtain ⟨copy, hcopy, rfl⟩ := List.mem_map.mp he
    exact get?_of_mem_copies hcopy
  calc m.mapOutput (m.mapInput row)
      = Fields.ofList (row.entries ++ (copies row m.entries).map fun e => (m.rename e.1, e.2)) := by
        rw [mapOutput, entries_mapInput h, List.map_append, hrow]
    _ = (Fields.ofList row.entries).insertAll
          ((copies row m.entries).map fun e => (m.rename e.1, e.2)) := Fields.insertAll_append _ _ _
    _ = row := by rw [Fields.ofList_entries, Fields.insertAll_of_get? hcopies]

/-- **Both ways back together** give the row again. -/
theorem merge_mapOutput_mapInput (h : m.Outside row) :
    (m.removeMapped (m.mapInput row)).merge (m.mapOutput (m.mapInput row)) = row := by
  rw [removeMapped_mapInput, removeMapped_eq_self_iff.mpr h, mapOutput_mapInput h, Fields.merge_self]

/-- **When removal undoes copying**: for a row from outside, and for no other. The row that is left is
without the fields that it had under internal names. -/
theorem removeMapped_mapInput_eq_iff (m : Mapping) (row : Record) :
    (m.removeMapped (m.mapInput row) = row ↔ m.Outside row) ∧
      m.removeMapped (m.mapInput row) = row.filter fun k _ => (m.external? k).isNone := by
  rw [removeMapped_mapInput]
  exact ⟨removeMapped_eq_self_iff, rfl⟩

/-- **A field taken for a copy**: the row has `carbon` of its own and nothing under the external name, so no
copy is made; but `carbon` is removed. -/
theorem removeMapped_mapInput_of_own_field :
    let m : Mapping := Fields.insert ∅ "carbon" "carbon-product"
    let row : Record := ⟨[(.text "carbon", .int 9), (.text "duration", .int 1)], by decide⟩
    m.mapInput row = row ∧
      m.removeMapped (m.mapInput row) = ⟨[(.text "duration", .int 1)], by decide⟩ ∧
      m.removeMapped (m.mapInput row) ≠ row := by
  intro m row
  have hleft : m.removeMapped (m.mapInput row) = ⟨[(.text "duration", .int 1)], by decide⟩ := rfl
  refine ⟨rfl, hleft, fun he => ?_⟩
  have hlength := congrArg (fun r : Record => r.entries.length) (hleft.symm.trans he)
  exact absurd hlength (by decide)

end Mapping

end RowPipeline
