import RowPipeline.Proofs.Record.OnePass

/-!
# Records that are worked out

A record is in normal form if none of its fields, `timestamp` apart, holds a marked or a closed text
(`IsNormal`). Every evaluated record is (`isNormal_of_evaluate`): a field comes out as it was if it needs no
evaluation, and as a number otherwise, or it is left out. And evaluation gives back just the records in normal
form (`evaluate_self_iff`), so one pass is enough and a second one changes nothing
(`evaluate_reaches_normal_form`).
-/

namespace RowPipeline

open Expression

namespace Record

/-- No field but `timestamp` holds a marked or a closed text. -/
def IsNormal (r : Record) : Prop :=
  ∀ k s, r.get? k = some (.text s) → k ≠ timestamp → hasMarker s = false ∧ isClosed s = false

variable {r out : Record} {k k' : Key} {v x : Value}

/-- In other words: no field but `timestamp` needs evaluation. -/
theorem isNormal_iff :
    r.IsNormal ↔ ∀ k v, r.get? k = some v → k ≠ timestamp → needsEvaluation v = false := by
  constructor
  · intro h k v hv hk
    by_contra hn
    obtain ⟨s, rfl, hs⟩ := needsEvaluation_iff.mp (by simpa using hn)
    obtain ⟨hmarker, hclosed⟩ := h k s hv hk
    rw [hmarker, hclosed] at hs
    rcases hs with hs | hs <;> cases hs
  · intro h k s hv hk
    exact Bool.or_eq_false_iff.mp (h k (.text s) hv hk)

/-! ### A field -/

theorem alone_of_inert (hk : k ≠ timestamp) (hn : needsEvaluation v = false) :
    alone r (k, v) = .ok v := by
  rw [alone, Expression.evaluate, evaluateWith_of_inert hk (by rw [hn]; rfl)]
  rfl

theorem alone_timestamp (hv : r.get? timestamp = some v) : alone r (timestamp, v) = .ok v := by
  rw [alone, Expression.evaluate, evaluateWith_timestamp, hv]
  rfl

/-- What comes out of a field needs no evaluation. -/
theorem needsEvaluation_of_alone (hk : k ≠ timestamp) (h : alone r (k, v) = .ok x) :
    needsEvaluation x = false := by
  cases hn : needsEvaluation v with
  | true =>
    obtain ⟨a, rfl⟩ := evaluateWith_number hk hn rfl h
    exact needsEvaluation_ofNumber? a
  | false =>
    rw [alone_of_inert hk hn] at h
    rw [← Except.ok.inj h, hn]

/-- A field that comes out as it was is kept. -/
theorem kept_of_same (h : alone r (k, v) = .ok v) : kept r (k, v) = some (k, v) := by
  rw [kept_of_ok h]
  cases v.isNull <;> rfl

theorem alone_of_kept (h : kept r (k, v) = some (k', x)) : alone r (k, v) = .ok x := by
  rw [kept] at h
  split at h
  · rename_i y hy
    split at h
    · cases h
    · obtain ⟨-, rfl⟩ := Prod.mk.inj (Option.some.inj h)
      exact hy
  · cases h

/-! ### A record -/

/-- **An evaluated record is in normal form.** -/
theorem isNormal_of_evaluate (h : (evaluate r).outcome = .ok out) : out.IsNormal := by
  rw [isNormal_iff]
  intro k x hx hk
  rw [get?_evaluate h] at hx
  obtain ⟨v, -, hv⟩ := Option.bind_eq_some_iff.mp hx
  obtain ⟨⟨k', y⟩, hkept, rfl⟩ := Option.map_eq_some_iff.mp hv
  exact needsEvaluation_of_alone hk (alone_of_kept hkept)

theorem get?_timestamp_evaluate (h : (evaluate r).outcome = .ok out) :
    out.get? timestamp = r.get? timestamp := by
  rw [get?_evaluate h]
  cases hv : r.get? timestamp with
  | none => rfl
  | some v => rw [Option.bind_some, kept_of_same (alone_timestamp hv), Option.map_some]

theorem evaluate_of_isNormal (h : r.IsNormal) : (evaluate r).outcome = .ok r := by
  have hsame : ∀ e ∈ r.entries, alone r e = .ok e.2 := by
    rintro ⟨k, v⟩ he
    have hv : r.get? k = some v := Entries.get?_of_mem r.nodup he
    by_cases hk : k = timestamp
    · subst hk
      exact alone_timestamp hv
    · exact alone_of_inert hk (isNormal_iff.mp h k v hv hk)
  obtain ⟨out, hout⟩ := evaluate_ok_iff.mpr fun e he => ⟨e.2, hsame e he⟩
  have hentries : r.entries.filterMap (kept r) = r.entries :=
    (List.filterMap_congr fun e he => kept_of_same (hsame e he)).trans List.filterMap_some
  rw [hout, Fields.ext ((entries_evaluate hout).trans hentries)]

/-- **Evaluation gives back the records in normal form**, and no others. -/
theorem evaluate_self_iff : (evaluate r).outcome = .ok r ↔ r.IsNormal :=
  ⟨isNormal_of_evaluate, evaluate_of_isNormal⟩

/-- **One pass reaches a normal form.** In an evaluated record no field but `timestamp` holds a marked or a closed
text, `timestamp` holds what it held before, and evaluating the record again gives it back, its fields in their
order. -/
theorem evaluate_reaches_normal_form (r out : Record) (h : (evaluate r).outcome = .ok out) :
    out.IsNormal ∧ out.get? timestamp = r.get? timestamp ∧ (evaluate out).outcome = .ok out :=
  ⟨isNormal_of_evaluate h, get?_timestamp_evaluate h, evaluate_of_isNormal (isNormal_of_evaluate h)⟩

/-- A row with a marked time, an expression of a later field and a closed text. -/
def timed : Record :=
  ⟨[(.text "timestamp", .text "=start"), (.text "double", .text "=2 * mem"), (.text "mem", .int 3),
    (.text "share", .text "4/2")], by decide⟩

theorem alone_timed_share : alone timed (.text "share", .text "4/2") = .ok (.int 2) := by
  have hquotient : evaluateClosed "4/2" = .ok (some (.int 2)) := by decide +kernel
  rw [alone, Expression.evaluate, evaluateWith_of_closed (by decide) rfl (by decide),
    Traced.outcome_lift, hquotient]
  rfl

/-- The time stays as it is, although there is no field `start`; the other texts become numbers. -/
theorem evaluate_reaches_normal_form_of_timed : ∃ out, (evaluate timed).outcome = .ok out ∧
    out.entries = [(.text "timestamp", .text "=start"), (.text "double", .int 6), (.text "mem", .int 3),
      (.text "share", .int 2)] ∧
    out.IsNormal ∧ out.get? timestamp = some (.text "=start") ∧ (evaluate out).outcome = .ok out := by
  have hentries : timed.entries = [(.text "timestamp", .text "=start"),
      (.text "double", .text "=2 * mem"), (.text "mem", .int 3), (.text "share", .text "4/2")] := rfl
  have htime : alone timed (.text "timestamp", .text "=start") = .ok (.text "=start") :=
    alone_timestamp rfl
  have hdouble : alone timed (.text "double", .text "=2 * mem") = .ok (.int 6) := alone_double rfl
  have hmem : alone timed (.text "mem", .int 3) = .ok (.int 3) := alone_of_inert (by decide) rfl
  have hall : ∀ e ∈ timed.entries, ∃ x, alone timed e = .ok x := by
    simp only [hentries, List.forall_mem_cons]
    exact ⟨⟨_, htime⟩, ⟨_, hdouble⟩, ⟨_, hmem⟩, ⟨_, alone_timed_share⟩, by simp⟩
  obtain ⟨out, hout⟩ := evaluate_ok_iff.mpr hall
  obtain ⟨hnormal, htimestamp, hagain⟩ := evaluate_reaches_normal_form timed out hout
  have hkept : kept timed (.text "double", .text "=2 * mem") = some (.text "double", .int 6) :=
    kept_of_ok hdouble
  have hshare : kept timed (.text "share", .text "4/2") = some (.text "share", .int 2) :=
    kept_of_ok alone_timed_share
  refine ⟨out, hout, ?_, hnormal, htimestamp, hagain⟩
  rw [entries_evaluate hout, hentries, List.filterMap_cons_some (kept_of_same htime),
    List.filterMap_cons_some hkept, List.filterMap_cons_some (kept_of_same hmem),
    List.filterMap_cons_some hshare, List.filterMap_nil]

end Record

end RowPipeline
