import RowPipeline.Proofs.Expression.Assignment
import RowPipeline.Proofs.Expression.MarkedText
import RowPipeline.Proofs.Fields
import RowPipeline.Record

/-!
# Output expressions

A plugin may name an output field by an expression, such as `=2*result`; the row then holds the raw value of
`result` under the whole expression. Working it out puts the value of the expression in that place, under
the first name of the expression, and leaves the other fields as they are, in their order
(`filter_replaceField`). The value is that of the expression with the raw number for its first name and the
row's numbers for the others (`evaluateOutput_of_marked`).

A row that has a field of the first name behind the expression keeps the value of that field, since the
later of two entries stands (`get?_replaceField_of_behind`). The field `timestamp` is never evaluated and gets the raw number
(`evaluateOutput_of_timestamp`).
-/

namespace RowPipeline

open Expression

namespace Record

variable {row out : Record} {field : Key} {p t : String} {v w : Value} {as bs : List (Key × Value)}

/-! ### A field in the place of another one -/

theorem not_mem_of_split (h : row.entries = as ++ (field, w) :: bs) :
    field ∉ Entries.keys as ∧ field ∉ Entries.keys bs := by
  have hn := row.nodup
  rw [h] at hn
  obtain ⟨has, hbs, -⟩ := Entries.not_mem_of_nodup_middle hn
  exact ⟨has, hbs⟩

theorem nodup_behind (h : row.entries = as ++ (field, w) :: bs) : (Entries.keys bs).Nodup := by
  have hn := row.nodup
  rw [h, Entries.keys_middle] at hn
  exact (List.nodup_cons.mp hn.of_append_right).2

/-- What stands in the place of the field, if it has a value. -/
theorem replaceField_of_split (h : row.entries = as ++ (field, w) :: bs) :
    row.replaceField field t v =
      Fields.ofList (as ++ ((if v.isNull then [] else [(.text t, v)]) ++ bs)) := by
  obtain ⟨has, hbs⟩ := not_mem_of_split h
  have hfield : (if field ≠ field then some (field, w)
      else if v.isNull then none else some (Scalar.text t, v)).toList =
      if v.isNull then [] else [(Scalar.text t, v)] := by
    rw [if_neg fun hne => hne rfl]
    split <;> rfl
  rw [replaceField, h, Entries.filterMap_middle (fun e he => if_pos he) has hbs, hfield]

/-- **The other fields stay as they are**, in their order. -/
theorem filter_replaceField (h : row.get? field = some w) :
    (row.replaceField field t v).entries.filter (fun e => e.1 ≠ .text t) =
      row.entries.filter fun e => e.1 ≠ field ∧ e.1 ≠ .text t := by
  obtain ⟨as, bs, hsplit⟩ := List.append_of_mem (Entries.mem_of_get? h)
  obtain ⟨has, hbs⟩ := not_mem_of_split hsplit
  have hmid : ((if v.isNull then [] else [(Scalar.text t, v)]) : List (Key × Value)).filter
      (fun e => e.1 ≠ .text t) = [] := by
    split <;> simp
  have hothers : ((as ++ bs).filter fun e => e.1 ≠ .text t) =
      row.entries.filter fun e => e.1 ≠ field ∧ e.1 ≠ .text t := by
    rw [hsplit, ← Entries.filter_middle (w := w) has hbs, List.filter_filter]
    refine List.filter_congr fun e _ => ?_
    rw [← Bool.decide_and]
    exact decide_eq_decide.mpr and_comm
  rw [replaceField_of_split hsplit]
  refine (Entries.filter_putAll (fun k : Key => k ≠ .text t) [] _).trans ?_
  rw [List.filter_append, List.filter_append, hmid, List.nil_append, ← List.filter_append,
    List.filter_nil, hothers]
  exact Entries.putAll_of_nodup (Entries.nodup_keys_filter _ row.nodup)

/-- The field is gone. -/
theorem get?_replaceField_self (h : row.get? field = some w) (hne : field ≠ .text t) :
    (row.replaceField field t v).get? field = none := by
  rw [Fields.get?_eq_none_iff]
  intro hmem
  obtain ⟨e, he, rfl⟩ := List.mem_map.mp hmem
  have hfilter : e ∈ (row.replaceField e.1 t v).entries.filter fun e' => e'.1 ≠ .text t :=
    List.mem_filter.mpr ⟨he, by simpa using hne⟩
  rw [filter_replaceField h] at hfilter
  simpa using (List.mem_filter.mp hfilter).2

/-- What stands under the other name: a field of its own behind, and else the value. -/
theorem get?_replaceField_of_split (h : row.entries = as ++ (field, w) :: bs)
    (hv : v.isNull = false) :
    (row.replaceField field t v).get? (.text t) = (Entries.get? (.text t) bs).or (some v) := by
  have hself : Entries.get? (.text t) ((Scalar.text t, v) :: as.reverse) = some v := if_pos rfl
  have hreverse : (as ++ ((Scalar.text t, v) :: bs)).reverse =
      bs.reverse ++ (Scalar.text t, v) :: as.reverse := by simp
  rw [replaceField_of_split h, Fields.get?_ofList, hv, ← Entries.get?_reverse (nodup_behind h),
    ← hself, ← Entries.get?_append, ← hreverse]
  rfl

/-- A name stands behind the field iff it is among the names of what follows. -/
theorem behind_iff (h : row.entries = as ++ (field, w) :: bs) :
    [field, .text t].Sublist row.keys ↔ Scalar.text t ∈ Entries.keys bs := by
  have hn := row.nodup
  rw [h, Entries.keys_middle] at hn
  rw [Fields.keys, h, Entries.keys_middle, pair_sublist_iff hn]

/-- **The value stands under the other name**, if the row has no field of that name behind. -/
theorem get?_replaceField (h : row.get? field = some w) (hv : v.isNull = false)
    (horder : ¬ [field, .text t].Sublist row.keys) :
    (row.replaceField field t v).get? (.text t) = some v := by
  obtain ⟨as, bs, hsplit⟩ := List.append_of_mem (Entries.mem_of_get? h)
  rw [behind_iff hsplit, ← Entries.get?_eq_none_iff] at horder
  rw [get?_replaceField_of_split hsplit hv, horder, Option.none_or]

/-- A field of that name behind stays as it is. -/
theorem get?_replaceField_of_behind (h : row.get? field = some w) (hv : v.isNull = false)
    (horder : [field, .text t].Sublist row.keys) :
    (row.replaceField field t v).get? (.text t) = row.get? (.text t) := by
  obtain ⟨as, bs, hsplit⟩ := List.append_of_mem (Entries.mem_of_get? h)
  rw [behind_iff hsplit] at horder
  obtain ⟨e, he, hkey⟩ := List.mem_map.mp horder
  have hbs : Entries.get? (.text t) bs = some e.2 :=
    Entries.get?_of_mem (nodup_behind hsplit) (hkey ▸ he)
  have hrow : row.get? (.text t) = some e.2 := by
    refine Entries.get?_of_mem row.nodup ?_
    rw [hsplit, ← hkey]
    simp [he]
  rw [get?_replaceField_of_split hsplit hv, hbs, hrow, Option.some_or]

/-! ### Working out an output expression -/

variable {tree : Tree} {a : Number}

/-- **The steps of working out an output expression.** -/
theorem evaluateOutput_ok_iff (hm : hasMarker p) (hp : Tree.parse (body p) = .ok tree)
    (hf : tree.firstName? = some t) (hrow : row.get? (.text p) = some (.ofNumber a)) :
    (evaluateOutput (.text p) row).outcome = .ok out ↔ a.isFinite ∧ ∃ result,
      (Expression.evaluate (row.insert (.text t) (.ofNumber a.normalize)) [] (.text t)
        (.text p)).outcome = .ok result ∧ out = row.replaceField (.text p) t result := by
  have hparse : parseFor p (.text p) = .ok tree := by rw [parseFor, hp]
  have hread : (row.read (.text p)).toNumber = .ok (if a.isFinite then some a.normalize else none) := by
    rw [read, hrow, Option.getD_some, Value.toNumber_ofNumber]
  unfold evaluateOutput
  simp only [hm, Bool.not_true, Bool.false_eq_true, if_false, hparse, Traced.outcome_bind,
    Traced.outcome_monadLift, Except.bind, hf, hread]
  by_cases ha : a.isFinite
  · simp only [ha, if_true, true_and, Traced.outcome_bind, bind_eq_ok_iff]
    refine exists_congr fun result => and_congr_right fun _ => ?_
    rw [Traced.outcome_pure, Except.ok.injEq, eq_comm]
  · simp [ha]

/-- **An output expression takes the place of its field.** The row holds a number under a marked text `p`
whose first name is `t`. After `p` is worked out the field `p` is gone and the others stay as they are, in
their order. The field `t` gets the value of `p` with that number for `t`, and the numbers that the row has for
the other names; as `timestamp` it gets the number itself. -/
theorem evaluateOutput_of_marked (p t : String) (tree : Tree) (row out : Record) (a : Number)
    (hm : hasMarker p) (hp : Tree.parse (body p) = .ok tree) (hf : tree.firstName? = some t)
    (hrow : row.get? (.text p) = some (.ofNumber a))
    (h : (evaluateOutput (.text p) row).outcome = .ok out) :
    out.get? (.text p) = none ∧
      (out.entries.filter fun e => e.1 ≠ .text t) =
        (row.entries.filter fun e => e.1 ≠ .text p ∧ e.1 ≠ .text t) ∧
      (.text t ≠ timestamp → ∃ (number : String → Number) (v : Option Number),
        number t = a.normalize ∧
        (∀ name, Mentions tree name → name ≠ t →
          (resolve (row.insert (.text t) (.ofNumber a.normalize)) [] [.text t] p name).outcome =
            .ok (number name)) ∧
        (tree.assign number).Yields v ∧
        (¬ [.text p, .text t].Sublist row.keys → ∀ b, v = some b →
          out.get? (.text t) = some (.ofNumber b))) ∧
      (.text t = timestamp → ¬ [.text p, .text t].Sublist row.keys →
        out.get? (.text t) = some (.ofNumber a.normalize)) := by
  obtain ⟨ha, result, hresult, rfl⟩ := (evaluateOutput_ok_iff hm hp hf hrow).mp h
  have hmention : Mentions tree t := mentions_of_firstName? hf
  have hne : Scalar.text p ≠ .text t := fun he =>
    ne_of_mentions hm hp hmention (Scalar.text.inj he).symm
  have hnull : ∀ b : Number, (Value.ofNumber b).isNull = false := fun b => by cases b <;> rfl
  refine ⟨get?_replaceField_self hrow hne, filter_replaceField hrow, fun ht => ?_, fun ht => ?_⟩
  · have hexamined : Examined [] (.text t) p :=
      ⟨ht, needsEvaluation_iff.mpr ⟨p, rfl, Or.inl hm⟩, rfl⟩
    obtain ⟨number, hnumber, v, hv, rfl⟩ := (evaluateWith_ok_iff hexamined hp).mp hresult
    have hself := hnumber t hmention
    rw [resolve_of_number (by simp) (Number.isFinite_normalize ha), Number.normalize_normalize] at hself
    refine ⟨number, v, (Except.ok.inj hself).symm, fun name hn _ => hnumber name hn, hv, ?_⟩
    rintro horder b rfl
    exact get?_replaceField hrow (hnull b) horder
  · intro horder
    have hraw : result = .ofNumber a.normalize := by
      rw [Expression.evaluate, ht, evaluateWith_timestamp, Fields.get?_insert, if_pos rfl] at hresult
      exact (Except.ok.inj hresult).symm
    rw [hraw]
    exact get?_replaceField hrow (hnull _) horder

/-- A row with a raw value under an expression. -/
def doubling : Record := ⟨[(.text "=2*result", .int 5), (.text "rate", .int 1)], by decide⟩

/-- The field `result` gets ten in the place of the expression. -/
theorem evaluateOutput_of_doubling :
    let p := "=2*result"
    let tree : Tree := .binary .mul (.literal (.int 2)) (.name "result" false)
    let out := doubling.replaceField (.text p) "result" (.int 10)
    hasMarker p ∧ Tree.parse (body p) = .ok tree ∧ tree.firstName? = some "result" ∧
      doubling.get? (.text p) = some (.ofNumber (.int 5)) ∧
      (evaluateOutput (.text p) doubling).outcome = .ok out ∧
      out.get? (.text p) = none ∧
      (out.entries.filter fun e => e.1 ≠ .text "result") = [(.text "rate", .int 1)] ∧
      out.get? (.text "result") = some (.int 10) := by
  intro p tree out
  have hm : hasMarker p := by decide
  have hp : Tree.parse (body p) = .ok tree := by decide +kernel
  have hf : tree.firstName? = some "result" := rfl
  have hrow : doubling.get? (.text p) = some (.ofNumber (.int 5)) := rfl
  have hvalue : (Expression.evaluate (doubling.insert (.text "result") (.int 5)) [] (.text "result")
      (.text p)).outcome = .ok (.int 10) := by
    have hread : ReadsAs (.text "result") p tree := ⟨by decide, hm, by decide, hp⟩
    have hresult : (resolve (doubling.insert (.text "result") (.int 5)) [] [.text "result"] p
        "result").outcome = .ok (.int 5) := resolve_of_int rfl
    have hfinish : (finish p (.text "result") tree [.int 5]).outcome = .ok (some (.int 10)) := by
      decide +kernel
    rw [Expression.evaluate, evaluateWith_of_one hread rfl rfl hresult, hfinish]
    rfl
  have hout := (evaluateOutput_ok_iff (a := .int 5) hm hp hf hrow).mpr ⟨rfl, _, hvalue, rfl⟩
  obtain ⟨hgone, hothers, hself, -⟩ :=
    evaluateOutput_of_marked p "result" tree doubling out (.int 5) hm hp hf hrow hout
  obtain ⟨number, v, ht, -, hv, hget⟩ := hself (by decide)
  have hten : v = some (.int 10) := by
    have hassign : tree.assign number = .binary .mul (.literal (.int 2)) (.literal (.int 5)) := by
      simp only [tree, Tree.assign, ht]
      rfl
    rw [hassign] at hv
    obtain ⟨-, b, hb, hb'⟩ := hv
    obtain rfl := Except.ok.inj hb
    exact (Except.ok.inj hb').symm
  exact ⟨hm, hp, hf, hrow, hout, hgone, hothers, hget (by decide) _ hten⟩

/-- **The field `timestamp` gets the raw number**: five stays five under `=2*timestamp`. -/
theorem evaluateOutput_of_timestamp :
    let p := "=2*timestamp"
    let tree : Tree := .binary .mul (.literal (.int 2)) (.name "timestamp" false)
    let row : Record := ⟨[(.text p, .int 5)], by decide⟩
    hasMarker p ∧ Tree.parse (body p) = .ok tree ∧ tree.firstName? = some "timestamp" ∧
      row.get? (.text p) = some (.ofNumber (.int 5)) ∧
      (tree.assign fun _ => .int 5).Yields (some (.int 10)) ∧
      ∃ out, (evaluateOutput (.text p) row).outcome = .ok out ∧
        out.get? (.text "timestamp") = some (.int 5) := by
  intro p tree row
  have hm : hasMarker p := by decide
  have hp : Tree.parse (body p) = .ok tree := by decide +kernel
  have hf : tree.firstName? = some "timestamp" := rfl
  have hrow : row.get? (.text p) = some (.ofNumber (.int 5)) := rfl
  have hvalue : (Expression.evaluate (row.insert timestamp (.int 5)) [] timestamp (.text p)).outcome =
      .ok (.int 5) := by
    rw [Expression.evaluate, evaluateWith_timestamp]
    rfl
  have hout := (evaluateOutput_ok_iff (a := .int 5) hm hp hf hrow).mpr ⟨rfl, _, hvalue, rfl⟩
  have hfinish : (finish p timestamp tree (tree.operands.map fun _ => .int 5)).outcome =
      .ok (some (.int 10)) := by decide +kernel
  have hten : (tree.assign fun _ => .int 5).Yields (some (.int 10)) := (finish_ok_iff rfl).mp hfinish
  exact ⟨hm, hp, hf, hrow, hten, _, hout, rfl⟩

end Record

end RowPipeline
