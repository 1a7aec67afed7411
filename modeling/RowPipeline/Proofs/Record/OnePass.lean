import RowPipeline.Proofs.Fields
import RowPipeline.Proofs.Record.References

/-!
# Evaluating a record in one pass

A record is evaluated field by field, and each field sees the record as evaluated so far. That makes
no difference: every field comes out as if it were evaluated on its own against the record as it was
(`alone`). The reason is that a record whose fields are raw or have come out (`Midway`) gives every
name the number it has in the raw record (`resolve_of_midway`). So the record comes out as its fields
do on their own (`evaluate_outcome`), whatever their order (`get?_evaluate_of_perm`).
-/

namespace RowPipeline

open Expression Relation

namespace Record

/-- What evaluating a field on its own gives, against the record as it is. -/
def alone (r : Record) (e : Key × Value) : Except Failure Value :=
  (Expression.evaluate r [] e.1 e.2).outcome

/-- What becomes of a field that is evaluated on its own: an undefined value is left out, unless there
was no value before. -/
def kept (r : Record) (e : Key × Value) : Option (Key × Value) :=
  match alone r e with
  | .ok x => if x.isNull && !e.2.isNull then none else some (e.1, x)
  | .error _ => none

/-- Every field of `m` is as it is in `r` or has come out. -/
def Midway (r m : Record) : Prop :=
  ∀ k, m.get? k = r.get? k ∨
    ∃ v x, r.get? k = some v ∧ alone r (k, v) = .ok x ∧ m.get? k = (kept r (k, v)).map Prod.snd

variable {r m : Record} {chain : List Key} {expression name : String} {k f : Key} {v x : Value}

theorem kept_of_ok (h : alone r (k, v) = .ok x) :
    kept r (k, v) = if x.isNull && !v.isNull then none else some (k, x) := by
  simp [kept, h]

theorem kept_fst {e e' : Key × Value} (h : kept r e = some e') : e'.1 = e.1 := by
  unfold kept at h
  split at h
  · split at h
    · cases h
    · obtain rfl := Option.some.inj h
      rfl
  · cases h

/-! ### A field that has come out -/

/-- A field comes out unchanged or as a number. -/
theorem alone_ok (hv : r.get? k = some v) (h : alone r (k, v) = .ok x) :
    x = v ∨ (needsEvaluation v ∧ k ≠ timestamp ∧ needsEvaluation x = false) := by
  by_cases hk : k = timestamp
  · subst hk
    rw [alone, Expression.evaluate, evaluateWith_timestamp, hv] at h
    exact Or.inl (Except.ok.inj h).symm
  · cases hn : needsEvaluation v with
    | false =>
      rw [alone, Expression.evaluate, evaluateWith_of_inert hk (by rw [hn]; rfl)] at h
      exact Or.inl (Except.ok.inj h).symm
    | true =>
      rcases evaluateWith_ok hk h with rfl | ⟨a, rfl⟩
      · exact Or.inl rfl
      · exact Or.inr ⟨rfl, hk, needsEvaluation_ofNumber? a⟩

/-- A field midway is raw, or was an expression and has come out as a number or not at all. -/
theorem Midway.cases (h : Midway r m) (k : Key) : m.get? k = r.get? k ∨
    k ≠ timestamp ∧ ∃ v x, r.get? k = some v ∧ needsEvaluation v ∧ alone r (k, v) = .ok x ∧
      needsEvaluation x = false ∧ m.get? k = if x.isNull then none else some x := by
  rcases h k with hk | ⟨v, x, hv, hx, hk⟩
  · exact Or.inl hk
  rw [kept_of_ok hx] at hk
  rcases alone_ok hv hx with rfl | ⟨hn, hk', hn'⟩
  · left
    rw [hk, hv]
    cases x.isNull <;> rfl
  · right
    refine ⟨hk', v, x, hv, hn, hx, hn', ?_⟩
    rw [hk, isNull_of_needsEvaluation hn]
    cases x.isNull <;> rfl

theorem Midway.timestamp (h : Midway r m) : m.get? timestamp = r.get? timestamp := by
  rcases h.cases Expression.timestamp with hk | ⟨hk, -⟩
  · exact hk
  · exact absurd rfl hk

/-- A name whose field has a value of its own has that value on every chain that leads to it. -/
theorem resolve_of_alone (hl : LeadsTo r chain name) (hv : r.get? (.text name) = some v)
    (hn : needsEvaluation v) (hx : alone r (.text name, v) = .ok x) :
    (resolve r [] chain expression name).outcome = finishedNumber name x := by
  have hname := Fields.mem_keys_of_get? hv
  have hacyclic := acyclic_of_ok hv hx
  have hc : chain.contains (.text name) = false := by
    simpa using fun hmem => hacyclic (hl _ hmem hname)
  have heval : (evaluateWith (resolve r [] (chain ++ [.text name])) r [] (.text name) v).outcome =
      .ok x := by
    rw [← hx]
    refine evaluateWith_congr (fun _ => rfl) fun s tree next hs hr hm => ?_
    subst hs
    obtain ⟨a, ha⟩ := evaluateWith_mentions hr rfl hm hx
    have hstep : Refers r (.text name) (.text next) := by
      obtain ⟨w, hw⟩ := get?_of_ok ha
      exact ⟨s, tree, next, hv, hr, hm, rfl, Fields.mem_keys_of_get? hw⟩
    rw [ha]
    -- a way back to the chain would close a cycle through the name
    refine resolve_chain_eq ha fun k hk hlead => hacyclic ?_
    rcases List.mem_append.mp hk with hk | hk
    · exact TransGen.head' hstep (hlead.trans (hl k hk hname).to_reflTransGen)
    · obtain rfl := List.mem_singleton.mp hk
      exact TransGen.head' hstep hlead
  rw [outcome_of_expression hv hn hc, heval]
  rfl

/-- **A name has the same number midway.** -/
theorem resolve_of_midway (h : Midway r m) (hl : LeadsTo r chain name) :
    (resolve m [] chain expression name).outcome =
      (resolve r [] chain expression name).outcome := by
  induction chain, name using chain_induction r generalizing expression with
  | step chain name ih =>
    rcases h.cases (.text name) with hk | ⟨-, v, x, hv, hn, hx, hn', hk⟩
    · cases hv : r.get? (.text name) with
      | none => rw [resolve_of_none hv, resolve_of_none (hk.trans hv)]
      | some v =>
        have hv' := hk.trans hv
        cases hn : needsEvaluation v with
        | false => rw [resolve_of_plain hv hn, resolve_of_plain hv' hn]
        | true =>
          cases hc : chain.contains (.text name) with
          | true => rw [resolve_of_chain hv hn hc, resolve_of_chain hv' hn hc]
          | false =>
            rw [outcome_of_expression hv hn hc, outcome_of_expression hv' hn hc]
            refine congrArg (Except.bind · _) ?_
            refine evaluateWith_congr (fun _ => h.timestamp) fun s tree next hs hr hm => ?_
            subst hs
            exact ih _ hv hc next (hl.next hv hr hm)
    · rw [resolve_of_alone hl hv hn hx]
      by_cases hnull : x.isNull
      · rw [if_pos hnull] at hk
        rw [resolve_of_none hk, finishedNumber, if_pos hnull]
        rfl
      · rw [if_neg hnull] at hk
        rw [resolve_of_plain hk hn']
        rfl

/-- **A field comes out the same midway.** -/
theorem evaluate_of_midway (h : Midway r m) (hv : r.get? f = some v) :
    (Expression.evaluate m [] f v).outcome = alone r (f, v) := by
  refine evaluateWith_congr (fun _ => h.timestamp) fun s tree name hs hr hm => ?_
  subst hs
  exact resolve_of_midway h (.start hv hr hm)

/-! ### The pass -/

/-- A record whose first fields have come out and whose other fields are raw is midway. -/
theorem midway_of_entries {before rest : List (Key × Value)} (hr : r.entries = before ++ rest)
    (hm : m.entries = before.filterMap (kept r) ++ rest)
    (hok : ∀ e ∈ before, ∃ x, alone r e = .ok x) : Midway r m := by
  intro k
  obtain ⟨hnodup, -, hdisjoint⟩ := Entries.nodup_keys_append.mp (hr ▸ r.nodup)
  have hrk : r.get? k = (Entries.get? k before).or (Entries.get? k rest) := by
    rw [← Entries.get?_append, ← hr]
    rfl
  have hmk : m.get? k = ((Entries.get? k before).bind fun v => (kept r (k, v)).map Prod.snd).or
      (Entries.get? k rest) := by
    rw [← Entries.get?_filterMap (fun _ _ => kept_fst) hnodup, ← Entries.get?_append, ← hm]
    rfl
  cases hb : Entries.get? k before with
  | none => exact Or.inl (by rw [hrk, hmk, hb]; rfl)
  | some v =>
    have hmem := Entries.mem_of_get? hb
    obtain ⟨x, hx⟩ := hok _ hmem
    -- the names are distinct, so nothing of the rest shows through
    have hrest : Entries.get? k rest = none :=
      Entries.get?_eq_none_iff.mpr (hdisjoint k (List.mem_map_of_mem hmem))
    refine Or.inr ⟨v, x, by rw [hrk, hb]; rfl, hx, ?_⟩
    rw [hmk, hb, hrest]
    simp

/-- Settling a field changes its own entry only. -/
theorem entries_settle_middle {before rest : List (Key × Value)}
    (hm : m.entries = before ++ (f, v) :: rest) (x : Value) : (m.settle f v x).entries =
      before ++ (if x.isNull && !v.isNull then none else some (f, x)).toList ++ rest := by
  obtain ⟨hf, hf', -⟩ := Entries.not_mem_of_nodup_middle (hm ▸ m.nodup)
  rw [settle]
  split
  · rw [Fields.erase, Fields.filter]
    simp only [hm, Option.toList_none, List.append_nil]
    exact Entries.filter_middle hf hf'
  · rw [Fields.insert]
    simp only [hm, Option.toList_some, List.append_assoc, List.singleton_append]
    exact Entries.put_middle hf

/-- **One step of the pass.** The field at hand comes out, the other entries stay. -/
theorem entries_settle {before rest : List (Key × Value)}
    (hm : m.entries = before.filterMap (kept r) ++ (f, v) :: rest) (hx : alone r (f, v) = .ok x) :
    (m.settle f v x).entries = (before ++ [(f, v)]).filterMap (kept r) ++ rest := by
  rw [entries_settle_middle hm, List.filterMap_append, List.filterMap_cons, kept_of_ok hx]
  split <;> rfl

/-- **The pass.** With the first fields out, the others come out as they do on their own, up to the
first one that fails. -/
theorem evaluateFields_outcome : ∀ (before rest : List (Key × Value)) {done : Record},
    r.entries = before ++ rest → done.entries = before.filterMap (kept r) ++ rest →
    (∀ e ∈ before, ∃ x, alone r e = .ok x) →
    ((∀ e ∈ rest, ∃ x, alone r e = .ok x) ∧ ∃ out, (evaluateFields done rest).outcome = .ok out ∧
      out.entries = r.entries.filterMap (kept r)) ∨
    ∃ middle e after failure, rest = middle ++ e :: after ∧ (∀ d ∈ middle, ∃ x, alone r d = .ok x) ∧
      alone r e = .error failure ∧ (evaluateFields done rest).outcome = .error failure
  | before, [], done, hr, hd, _ => Or.inl ⟨by simp, done, rfl, by
      rw [hd, hr, List.append_nil, List.append_nil]⟩
  | before, (f, v) :: rest, done, hr, hd, hok => by
    have hv : r.get? f = some v := Entries.get?_of_mem r.nodup (by rw [hr]; simp)
    have hf := evaluate_of_midway (midway_of_entries hr hd hok) hv
    cases ha : alone r (f, v) with
    | error failure =>
      refine Or.inr ⟨[], (f, v), rest, failure, rfl, by simp, ha, ?_⟩
      rw [evaluateFields, Traced.outcome_bind, hf, ha]
      rfl
    | ok x =>
      have hstep : (evaluateFields done ((f, v) :: rest)).outcome =
          (evaluateFields (done.settle f v x) rest).outcome := by
        rw [evaluateFields, Traced.outcome_bind, hf, ha]
        rfl
      have hok' : ∀ e ∈ before ++ [(f, v)], ∃ x, alone r e = .ok x := by
        intro e he
        rcases List.mem_append.mp he with he | he
        · exact hok e he
        · obtain rfl := List.mem_singleton.mp he
          exact ⟨x, ha⟩
      rw [hstep]
      rcases evaluateFields_outcome (before ++ [(f, v)]) rest (by rw [hr, List.append_assoc]; rfl)
        (entries_settle hd ha) hok' with ⟨hrest, out, hout, he⟩ | ⟨middle, e, after, failure, rfl, hmiddle, he, hout⟩
      · exact Or.inl ⟨by simpa using ⟨⟨x, ha⟩, fun k w => hrest (k, w)⟩, out, hout, he⟩
      · refine Or.inr ⟨(f, v) :: middle, e, after, failure, rfl, ?_, he, hout⟩
        simpa using ⟨⟨x, ha⟩, fun k w => hmiddle (k, w)⟩

/-! ### The evaluated record -/

/-- A record comes out as its fields do on their own, or fails as the first one that fails. -/
theorem evaluate_outcome (r : Record) :
    ((∀ e ∈ r.entries, ∃ x, alone r e = .ok x) ∧ ∃ out, (evaluate r).outcome = .ok out ∧
      out.entries = r.entries.filterMap (kept r)) ∨
    ∃ before e after failure, r.entries = before ++ e :: after ∧
      (∀ d ∈ before, ∃ x, alone r d = .ok x) ∧ alone r e = .error failure ∧
        (evaluate r).outcome = .error failure :=
  evaluateFields_outcome [] r.entries rfl rfl (by simp)

theorem evaluate_ok_iff : (∃ out, (evaluate r).outcome = .ok out) ↔
    ∀ e ∈ r.entries, ∃ x, alone r e = .ok x := by
  rcases evaluate_outcome r with ⟨hall, out, hout, -⟩ | ⟨before, e, after, failure, hr, -, he, hout⟩
  · exact ⟨fun _ => hall, fun _ => ⟨out, hout⟩⟩
  · constructor
    · rintro ⟨out, h⟩
      rw [hout] at h
      cases h
    · intro hall
      obtain ⟨x, hx⟩ := hall e (by rw [hr]; simp)
      rw [he] at hx
      cases hx

theorem entries_evaluate {out : Record} (h : (evaluate r).outcome = .ok out) :
    out.entries = r.entries.filterMap (kept r) := by
  rcases evaluate_outcome r with ⟨-, out', hout, he⟩ | ⟨_, _, _, _, -, -, -, hout⟩
  · rw [hout] at h
    rw [← Except.ok.inj h, he]
  · rw [hout] at h
    cases h

/-- What a field of the evaluated record holds. -/
theorem get?_evaluate {out : Record} (h : (evaluate r).outcome = .ok out) (k : Key) :
    out.get? k = (r.get? k).bind fun v => (kept r (k, v)).map Prod.snd := by
  rw [Fields.get?, entries_evaluate h]
  exact Entries.get?_filterMap (fun _ _ => kept_fst) r.nodup k

section Permuted

variable {r' : Record} (hp : r'.entries.Perm r.entries)

include hp

theorem get?_of_perm (k : Key) : r'.get? k = r.get? k := Entries.get?_perm r.nodup hp k

theorem alone_of_perm (hv : r.get? k = some v) : alone r' (k, v) = alone r (k, v) :=
  evaluate_of_midway (fun k => Or.inl (get?_of_perm hp k)) hv

theorem evaluate_ok_of_perm :
    (∃ out, (evaluate r').outcome = .ok out) ↔ ∃ out, (evaluate r).outcome = .ok out := by
  rw [evaluate_ok_iff, evaluate_ok_iff]
  refine forall_congr' fun e => ?_
  rw [hp.mem_iff]
  refine imp_congr_right fun he => ?_
  obtain ⟨k, v⟩ := e
  rw [alone_of_perm hp (Entries.get?_of_mem r.nodup he)]

theorem get?_evaluate_of_perm {out out' : Record} (h : (evaluate r).outcome = .ok out)
    (h' : (evaluate r').outcome = .ok out') (k : Key) : out'.get? k = out.get? k := by
  rw [get?_evaluate h, get?_evaluate h', get?_of_perm hp]
  cases hv : r.get? k with
  | none => rfl
  | some v => rw [Option.bind_some, Option.bind_some, kept, kept, alone_of_perm hp hv]

end Permuted

/-- **A record is evaluated as its fields are on their own.** It succeeds iff every field does; then it
holds the fields that are kept, in their order. Otherwise it fails as the first field that fails.
The order of the fields decides neither whether it succeeds nor what the fields then hold. -/
theorem evaluate_iff_alone (r : Record) :
    ((∃ out, (evaluate r).outcome = .ok out) ↔ ∀ e ∈ r.entries, ∃ x, alone r e = .ok x) ∧
    (∀ out, (evaluate r).outcome = .ok out → out.entries = r.entries.filterMap (kept r)) ∧
    (∀ failure, (evaluate r).outcome = .error failure → ∃ before e after,
      r.entries = before ++ e :: after ∧ (∀ d ∈ before, ∃ x, alone r d = .ok x) ∧
        alone r e = .error failure) ∧
    ∀ r' : Record, r'.entries.Perm r.entries →
      (∃ failure failure', (evaluate r).outcome = .error failure ∧
        (evaluate r').outcome = .error failure') ∨
      ∃ out out', (evaluate r).outcome = .ok out ∧ (evaluate r').outcome = .ok out' ∧
        ∀ k, out'.get? k = out.get? k := by
  refine ⟨evaluate_ok_iff, fun out => entries_evaluate, fun failure h => ?_, fun r' hp => ?_⟩
  · rcases evaluate_outcome r with ⟨-, out, hout, -⟩ | ⟨before, e, after, failure', hr, hb, he, hf⟩
    · rw [hout] at h
      cases h
    · rw [hf] at h
      obtain rfl := Except.error.inj h
      exact ⟨before, e, after, hr, hb, he⟩
  · have hiff := evaluate_ok_of_perm hp
    cases h : (evaluate r).outcome with
    | ok out =>
      obtain ⟨out', h'⟩ := hiff.mpr ⟨out, h⟩
      exact Or.inr ⟨out, out', rfl, h', get?_evaluate_of_perm hp h h'⟩
    | error failure =>
      cases h' : (evaluate r').outcome with
      | ok out' =>
        obtain ⟨out, hout⟩ := hiff.mp ⟨out', h'⟩
        rw [h] at hout
        cases hout
      | error failure' => exact Or.inl ⟨failure, failure', rfl, rfl⟩

/-- An expression of twice the field `mem`, in a record that holds 3 there. -/
theorem alone_of_doubled {s : String} (hr : ReadsAs k s (.binary .mul (.literal (.int 2)) (.name "mem" false)))
    (hmem : r.get? (.text "mem") = some (.int 3)) : alone r (k, .text s) = .ok (.int 6) := by
  have hthree : (resolve r [] [k] s "mem").outcome = .ok (.int 3) := resolve_of_int hmem
  have hsix : (finish s k (.binary .mul (.literal (.int 2)) (.name "mem" false)) [.int 3]).outcome =
      .ok (some (.int 6)) := by
    rw [finish_outcome]
    decide +kernel
  rw [alone, Expression.evaluate, evaluateWith_of_one hr rfl rfl hthree, hsix]
  rfl

theorem alone_double (hmem : r.get? (.text "mem") = some (.int 3)) :
    alone r (.text "double", .text "=2 * mem") = .ok (.int 6) :=
  alone_of_doubled ⟨by decide, by decide, by decide, by cbv⟩ hmem

/-- A row whose first field refers to its second. -/
def forward : Record :=
  ⟨[(.text "double", .text "=2 * mem"), (.text "mem", .int 3)], by decide⟩

/-- The same row with its fields the other way round. -/
def backward : Record :=
  ⟨[(.text "mem", .int 3), (.text "double", .text "=2 * mem")], by decide⟩

theorem evaluate_iff_alone_of_forward :
    alone forward (.text "double", .text "=2 * mem") = .ok (.int 6) ∧
    (∃ out, (evaluate forward).outcome = .ok out) ∧ backward.entries.Perm forward.entries ∧
      ∃ out out', (evaluate forward).outcome = .ok out ∧ (evaluate backward).outcome = .ok out' ∧
        ∀ k, out'.get? k = out.get? k := by
  have hdouble : alone forward (.text "double", .text "=2 * mem") = .ok (.int 6) := alone_double rfl
  have hmem : alone forward (.text "mem", .int 3) = .ok (.int 3) := rfl
  have hall : ∀ e ∈ forward.entries, ∃ x, alone forward e = .ok x := by
    intro e he
    rcases List.mem_cons.mp he with rfl | he
    · exact ⟨_, hdouble⟩
    · obtain rfl := List.mem_singleton.mp he
      exact ⟨_, hmem⟩
  have hp : backward.entries.Perm forward.entries := List.Perm.swap _ _ _
  obtain ⟨hok, -, -, hperm⟩ := evaluate_iff_alone forward
  obtain ⟨out, hout⟩ := hok.mpr hall
  refine ⟨hdouble, ⟨out, hout⟩, hp, ?_⟩
  rcases hperm backward hp with ⟨failure, -, hfail, -⟩ | h
  · rw [hout] at hfail
    cases hfail
  · exact h

end Record

end RowPipeline
