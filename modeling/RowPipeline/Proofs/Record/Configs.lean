import RowPipeline.Proofs.Record.OnePass

/-!
# Evaluating a config against a row

The fields of a config are evaluated against the row, which the pass over the config does not change; so
each comes out as it does on its own (`settled`). A config that is evaluated holds its fields as they are
settled, in their order (`entries_evaluateConfig`): those that are not allowed as they were, the allowed
ones with their values (`get?_evaluateConfig`), and an allowed field whose value is undefined not at all.
-/

namespace RowPipeline

open Expression

namespace Record

/-- What becomes of a config field against a row. -/
def settled (row : Record) (allow : List Key) (e : Key × Value) : Option (Key × Value) :=
  if allow.contains e.1 then
    match (Expression.evaluate row allow e.1 e.2).outcome with
    | .ok x => if x.isNull && !e.2.isNull then none else some (e.1, x)
    | .error _ => none
  else some e

variable {config row out : Record} {allow : List Key} {f : Key} {v x : Value}

theorem settled_of_ok (hf : f ∈ allow) (h : (Expression.evaluate row allow f v).outcome = .ok x) :
    settled row allow (f, v) = if x.isNull && !v.isNull then none else some (f, x) := by
  simp [settled, hf, h]

theorem settled_of_not_mem (hf : f ∉ allow) : settled row allow (f, v) = some (f, v) := by
  simp [settled, hf]

theorem settled_fst {e e' : Key × Value} (h : settled row allow e = some e') : e'.1 = e.1 := by
  obtain ⟨f, v⟩ := e
  by_cases hf : f ∈ allow
  · cases hx : (Expression.evaluate row allow f v).outcome with
    | error failure => simp [settled, hf, hx] at h
    | ok x =>
      rw [settled_of_ok hf hx] at h
      split at h
      · cases h
      · rw [← Option.some.inj h]
  · rw [settled_of_not_mem hf] at h
    rw [← Option.some.inj h]

/-- One step of the pass over a config. -/
theorem evaluateAllowed_cons {done : Record} {rest : List (Key × Value)} {shaped : Value}
    (hf : f ∈ allow) (hs : checkShape f v = .ok shaped)
    (h : (Expression.evaluate row allow f v).outcome = .ok x) :
    (evaluateAllowed row allow done ((f, v) :: rest)).outcome =
      (evaluateAllowed row allow (done.settle f v x) rest).outcome := by
  rw [evaluateAllowed, if_pos (by simpa using hf), hs, Traced.outcome_bind]
  change (_ >>= _ : Traced _).outcome = _
  rw [Traced.outcome_bind, h]
  rfl

/-- **The pass over a config.** The entries that it has passed stay as they are. -/
theorem evaluateAllowed_ok : ∀ (before rest : List (Key × Value)) {done : Record},
    done.entries = before ++ rest → (evaluateAllowed row allow done rest).outcome = .ok out →
    (∀ e ∈ rest, e.1 ∈ allow → ∃ x, (Expression.evaluate row allow e.1 e.2).outcome = .ok x) ∧
      out.entries = before ++ rest.filterMap (settled row allow)
  | before, [], done, hd, h => by
    obtain rfl := Except.ok.inj h
    exact ⟨by simp, hd⟩
  | before, (f, v) :: rest, done, hd, h => by
    rw [evaluateAllowed] at h
    by_cases hf : f ∈ allow
    · rw [if_pos (by simpa using hf)] at h
      obtain ⟨_, -, h⟩ := Traced.bind_ok_iff.mp h
      obtain ⟨x, hx, h⟩ := Traced.bind_ok_iff.mp h
      obtain ⟨hrest, hout⟩ := evaluateAllowed_ok _ rest (entries_settle_middle hd x) h
      refine ⟨fun e he hmem => ?_, ?_⟩
      · rcases List.mem_cons.mp he with rfl | he
        · exact ⟨x, hx⟩
        · exact hrest e he hmem
      · rw [hout, List.filterMap_cons, settled_of_ok hf hx]
        split <;> simp
    · rw [if_neg (by simpa using hf)] at h
      have hd' : done.entries = (before ++ [(f, v)]) ++ rest := by rw [hd]; simp
      obtain ⟨hrest, hout⟩ := evaluateAllowed_ok _ rest hd' h
      refine ⟨fun e he hmem => ?_, ?_⟩
      · rcases List.mem_cons.mp he with rfl | he
        · exact absurd hmem hf
        · exact hrest e he hmem
      · rw [hout, List.filterMap_cons, settled_of_not_mem hf]
        simp

/-- **An evaluated config** holds its fields as they are settled. -/
theorem entries_evaluateConfig (h : (config.evaluateConfig row allow).outcome = .ok out) :
    out.entries = config.entries.filterMap (settled row allow) :=
  (evaluateAllowed_ok [] config.entries rfl h).2

/-- What a field of an evaluated config holds. -/
theorem get?_evaluateConfig_settled (h : (config.evaluateConfig row allow).outcome = .ok out) (f : Key) :
    out.get? f = (config.get? f).bind fun v => (settled row allow (f, v)).map Prod.snd := by
  rw [Fields.get?, entries_evaluateConfig h]
  exact Entries.get?_filterMap (fun _ _ => settled_fst) config.nodup f

/-- An allowed field of a config that is evaluated has a value, or none because it is undefined. -/
theorem get?_evaluateConfig (h : (config.evaluateConfig row allow).outcome = .ok out) (hf : f ∈ allow)
    (hv : config.get? f = some v) : ∃ x, (Expression.evaluate row allow f v).outcome = .ok x ∧
      out.get? f = if x.isNull && !v.isNull then none else some x := by
  obtain ⟨hall, -⟩ := evaluateAllowed_ok [] config.entries rfl h
  obtain ⟨x, hx⟩ := hall (f, v) (Entries.mem_of_get? hv) hf
  refine ⟨x, hx, ?_⟩
  rw [get?_evaluateConfig_settled h, hv, Option.bind_some, settled_of_ok hf hx]
  split <;> rfl

/-- A field that is not allowed keeps its value. -/
theorem get?_evaluateConfig_of_not_mem (h : (config.evaluateConfig row allow).outcome = .ok out)
    (hf : f ∉ allow) : out.get? f = config.get? f := by
  rw [get?_evaluateConfig_settled h]
  cases hv : config.get? f with
  | none => rfl
  | some v => rw [Option.bind_some, settled_of_not_mem hf, Option.map_some]

end Record

end RowPipeline
