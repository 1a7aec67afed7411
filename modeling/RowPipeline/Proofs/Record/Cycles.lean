import RowPipeline.Proofs.Record.OnePass

/-!
# Evaluation ends, and cycles fail

Resolving a name may start a nested evaluation. The chain of names grows each time, so evaluations are
nested at most as deep as the record has fields: with the depth limited to that number the limit is
never met (`evaluateWithin_eq`, `evaluateFieldsWithin_eq`). A circular reference is reported only where
the references between the fields have a cycle, and a record with a cycle is never evaluated.
-/

namespace RowPipeline

open Relation

namespace Expression

/-! ### The depth of nested evaluations -/

/-- The number of a name, with nested evaluations done by `nested`. -/
def resolveBy (nested : List Key → List Key → Key → Value → Traced Value) (context : Record)
    (allow chain : List Key) (expression name : String) : Traced Number :=
  match context.get? (.text name) with
  | none => Traced.fail (.arithmetic (.missingVariable name))
  | some value =>
    if needsEvaluation value then
      if chain.contains (.text name) then
        Traced.fail (.arithmetic (.circular expression (chain.map Scalar.label ++ [name])))
      else do
        let result ← nested (allowAlso allow name) (chain ++ [.text name]) (.text name) value
        Traced.lift (finishedNumber name result)
    else Traced.lift (finishedNumber name value)

/-- Evaluates the value of a field, nesting evaluations at most `depth` deep, this one included;
`limit` happens where one more would start. -/
def evaluateWithin (limit : Traced Value) (context : Record) :
    Nat → List Key → List Key → Key → Value → Traced Value
  | 0, _, _, _, _ => limit
  | depth + 1, allow, chain, field, value =>
    evaluateWith (resolveBy (evaluateWithin limit context depth) context allow chain) context allow
      field value

variable {limit : Traced Value} {context : Record} {allow chain : List Key}
  {expression name : String} {field : Key} {value : Value}

/-- A nested evaluation starts only for a name that has a value and is not on the chain. -/
theorem resolveBy_eq {nested : List Key → List Key → Key → Value → Traced Value}
    (h : ∀ v, context.get? (.text name) = some v → chain.contains (.text name) = false →
      nested (allowAlso allow name) (chain ++ [.text name]) (.text name) v =
        evaluateWith (resolve context (allowAlso allow name) (chain ++ [.text name])) context
          (allowAlso allow name) (.text name) v) :
    resolveBy nested context allow chain expression name =
      resolve context allow chain expression name := by
  unfold resolveBy
  split
  · rename_i hv
    rw [resolve_of_none hv]
  · rename_i v hv
    rw [resolve_of_some hv]
    split
    · split
      · rfl
      · rename_i hc
        rw [h v hv (by simpa using hc)]
    · rfl

/-- **The limit is not met** if it allows for every name that is not on the chain. -/
theorem evaluateWithin_eq {depth : Nat} (h : (unvisited context chain).length < depth) :
    evaluateWithin limit context depth allow chain field value =
      evaluateWith (resolve context allow chain) context allow field value := by
  induction depth generalizing allow chain field value with
  | zero => omega
  | succ depth ih =>
    have hnested : resolveBy (evaluateWithin limit context depth) context allow chain =
        resolve context allow chain := by
      funext expression name
      refine resolveBy_eq fun v hv hc => ih ?_
      have := unvisited_lt hv hc
      omega
    rw [evaluateWithin, hnested]

end Expression

open Expression

namespace Record

/-- `evaluateFields` with the depth of evaluations limited. -/
def evaluateFieldsWithin (limit : Traced Value) (depth : Nat) (done : Record) :
    List (Key × Value) → Traced Record
  | [] => pure done
  | (field, raw) :: rest => do
    let result ← Expression.evaluateWithin limit done depth [] [field] field raw
    evaluateFieldsWithin limit depth (done.settle field raw result) rest

/-- `evaluate` with the depth of evaluations limited. -/
def evaluateWithin (limit : Traced Value) (depth : Nat) (r : Record) : Traced Record :=
  evaluateFieldsWithin limit depth r r.entries

variable {r done : Record} {limit : Traced Value} {depth : Nat} {f k : Key} {v x : Value}

theorem length_unvisited_lt (hf : f ∈ done.keys) :
    (unvisited done [f]).length < done.keys.length := by
  unfold unvisited
  exact List.length_filter_lt_length_iff_exists.mpr ⟨f, hf, by simp⟩

/-- Settling a field keeps the other names, and adds none. -/
theorem keys_settle (hf : f ∈ done.keys) :
    (done.settle f v x).keys.length ≤ done.keys.length ∧
      ∀ k ∈ done.keys, k ≠ f → k ∈ (done.settle f v x).keys := by
  unfold settle
  split
  · have hkeys : (done.erase f).keys = done.keys.filter fun k => k ≠ f := by
      rw [Fields.erase, Fields.filter, Fields.keys, Fields.keys, Entries.keys, Entries.keys,
        List.filter_map]
      rfl
    rw [hkeys]
    exact ⟨List.length_filter_le _ _, fun k hk hne => List.mem_filter.mpr ⟨hk, by simpa using hne⟩⟩
  · rw [Fields.keys_insert, if_pos hf]
    exact ⟨le_rfl, fun k hk _ => hk⟩

theorem evaluateFieldsWithin_eq : ∀ (rest : List (Key × Value)) {done : Record},
    done.keys.length ≤ depth → (∀ k ∈ Entries.keys rest, k ∈ done.keys) → (Entries.keys rest).Nodup →
    evaluateFieldsWithin limit depth done rest = evaluateFields done rest
  | [], _, _, _, _ => rfl
  | (f, v) :: rest, done, hd, hk, hn => by
    obtain ⟨hf, hn⟩ := List.nodup_cons.mp hn
    have hmem : f ∈ done.keys := hk f (by simp)
    have hlt := length_unvisited_lt hmem
    rw [evaluateFieldsWithin, evaluateFields, evaluateWithin_eq (by omega)]
    refine bind_congr fun x => ?_
    obtain ⟨hlen, hkeep⟩ := keys_settle (v := v) (x := x) hmem
    refine evaluateFieldsWithin_eq rest (hlen.trans hd) (fun k hrest => ?_) hn
    have hne : k ≠ f := fun he => hf (he ▸ hrest)
    exact hkeep k (hk k (by simp [hrest])) hne

/-! ### Cycles -/

/-- **Evaluation ends, and cycles fail.** No evaluation is nested deeper than the record has fields. A
circular reference is reported only if the references have a cycle, and a record with a cycle
fails. -/
theorem evaluate_cycles (r : Record) :
    (∀ limit, evaluateWithin limit r.keys.length r = evaluate r) ∧
    (∀ expression chain, (evaluate r).outcome = .error (.arithmetic (.circular expression chain)) →
      ∃ f, TransGen (Refers r) f f) ∧
    ((∃ f, TransGen (Refers r) f f) → ∃ failure, (evaluate r).outcome = .error failure) := by
  refine ⟨fun limit => evaluateFieldsWithin_eq _ le_rfl (fun _ hk => hk) r.nodup, ?_, ?_⟩
  · intro expression chain h
    rcases evaluate_outcome r with ⟨-, out, hout, -⟩ | ⟨before, ⟨k, v⟩, after, failure, hr, -, he, hf⟩
    · rw [hout] at h
      cases h
    · rw [hf] at h
      obtain rfl := Except.error.inj h
      exact cycle_of_circular (Entries.get?_of_mem r.nodup (by rw [hr]; simp)) rfl he
  · rintro ⟨f, hf⟩
    cases h : (evaluate r).outcome with
    | error failure => exact ⟨failure, rfl⟩
    | ok out =>
      obtain ⟨v, hv⟩ : ∃ v, r.get? f = some v := by
        obtain ⟨g, ⟨s, -, -, hs, -⟩, -⟩ := TransGen.head'_iff.mp hf
        exact ⟨_, hs⟩
      obtain ⟨x, hx⟩ := evaluate_ok_iff.mp ⟨out, h⟩ (f, v) (Entries.mem_of_get? hv)
      exact absurd hf (acyclic_of_ok hv hx)

/-- Two fields that refer to each other. -/
def circle : Record :=
  ⟨[(.text "cpu", .text "=mem"), (.text "mem", .text "=2 * cpu")], by decide⟩

theorem evaluate_cycles_of_circle :
    (∃ f, TransGen (Refers circle) f f) ∧
    (evaluate circle).outcome = .error (.arithmetic (.circular "=2 * cpu" ["cpu", "mem", "cpu"])) ∧
    evaluateWithin (Traced.fail .overflow) 2 circle = evaluate circle := by
  have hcpu : ReadsAs (.text "cpu") "=mem" (.name "mem" false) :=
    ⟨by decide, by decide, by decide, by cbv⟩
  have hmem : ReadsAs (.text "mem") "=2 * cpu"
      (.binary .mul (.literal (.int 2)) (.name "cpu" false)) :=
    ⟨by decide, by decide, by decide, by cbv⟩
  have hback : (resolve circle [] [.text "cpu", .text "mem"] "=2 * cpu" "cpu").outcome =
      .error (.arithmetic (.circular "=2 * cpu" ["cpu", "mem", "cpu"])) := by
    rw [resolve_of_chain rfl hcpu.needsEvaluation rfl]
    rfl
  have hnext : (resolve circle [] [.text "cpu"] "=mem" "mem").outcome =
      .error (.arithmetic (.circular "=2 * cpu" ["cpu", "mem", "cpu"])) := by
    rw [outcome_of_expression rfl hmem.needsEvaluation rfl]
    exact bind_eq_error_iff.mpr (Or.inl (evaluateWith_of_first hmem rfl rfl hback))
  have hfails : (evaluate circle).outcome =
      .error (.arithmetic (.circular "=2 * cpu" ["cpu", "mem", "cpu"])) := by
    rw [evaluate, circle, evaluateFields, Traced.outcome_bind]
    exact bind_eq_error_iff.mpr (Or.inl (evaluateWith_of_first hcpu rfl rfl hnext))
  obtain ⟨hdepth, hcycle, -⟩ := evaluate_cycles circle
  exact ⟨hcycle _ _ hfails, hfails, hdepth _⟩

end Record

end RowPipeline
