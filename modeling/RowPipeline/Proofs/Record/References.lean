import Mathlib.Logic.Relation
import RowPipeline.Proofs.Expression.Evaluation
import RowPipeline.Record

/-!
# References between fields

A field refers to the fields that the tree of its expression mentions (`Refers`); evaluating a field
follows these references. If a name is resolved, no reference leads from it back to its chain
(`not_mem_chain`); so a field with a value of its own is on no cycle (`acyclic_of_ok`), and the chain
that led to a name does not matter as long as the name does not lead back to it
(`resolve_chain_eq`). Conversely a circular reference is found only where there is a cycle
(`cycle_of_circular`).
-/

namespace RowPipeline

open Expression Relation

namespace Record

/-- The field `f` is worked out from a tree that mentions the field `g`. -/
def Refers (r : Record) (f g : Key) : Prop :=
  ∃ s tree name, r.get? f = some (.text s) ∧ ReadsAs f s tree ∧ Mentions tree name ∧
    g = .text name ∧ g ∈ r.keys

variable {r : Record} {chain : List Key} {expression name s : String} {f k : Key} {a : Number}
  {v : Value} {tree : Tree} {failure : Failure}

theorem outcome_of_expression (hv : r.get? (.text name) = some v) (hn : needsEvaluation v)
    (hc : chain.contains (.text name) = false) :
    (resolve r [] chain expression name).outcome =
      (evaluateWith (resolve r [] (chain ++ [.text name])) r [] (.text name) v).outcome.bind
        (finishedNumber name) := by
  rw [resolve_of_expression hv hn hc, Traced.outcome_bind]
  rfl

/-! ### Names that are resolved -/

theorem get?_of_ok (h : (resolve r [] chain expression name).outcome = .ok a) :
    ∃ v, r.get? (.text name) = some v := by
  cases hv : r.get? (.text name) with
  | none =>
    rw [resolve_of_none hv] at h
    cases h
  | some v => exact ⟨v, rfl⟩

/-- A name that is resolved as an expression is not on the chain, and its expression has a value. -/
theorem evaluate_of_ok (h : (resolve r [] chain expression name).outcome = .ok a)
    (hv : r.get? (.text name) = some v) (hn : needsEvaluation v) :
    Scalar.text name ∉ chain ∧ ∃ x, (evaluateWith (resolve r [] (chain ++ [.text name])) r []
      (.text name) v).outcome = .ok x ∧ finishedNumber name x = .ok a := by
  by_cases hc : chain.contains (.text name)
  · rw [resolve_of_chain hv hn hc] at h
    cases h
  · rw [outcome_of_expression hv hn (by simpa using hc)] at h
    obtain ⟨x, hx, ha⟩ := bind_eq_ok_iff.mp h
    exact ⟨by simpa using hc, x, hx, ha⟩

/-- **No way back to the chain**: where a resolved name leads, there is no expression of the chain. -/
theorem not_mem_chain (h : (resolve r [] chain expression name).outcome = .ok a)
    (hk : ReflTransGen (Refers r) (.text name) k) {g : Key} (hg : Refers r k g) : k ∉ chain := by
  generalize hf : Scalar.text name = f at hk
  induction hk using ReflTransGen.head_induction_on generalizing name chain expression a with
  | refl =>
    obtain ⟨s, tree, -, hs, hr, -⟩ := hg
    subst hf
    exact (evaluate_of_ok h hs hr.needsEvaluation).1
  | head hstep _ ih =>
    obtain ⟨s, tree, next, hs, hr, hm, rfl, -⟩ := hstep
    subst hf
    obtain ⟨-, x, hx, -⟩ := evaluate_of_ok h hs hr.needsEvaluation
    obtain ⟨b, hb⟩ := evaluateWith_mentions hr rfl hm hx
    exact fun hc => ih hb rfl (List.mem_append_left _ hc)

/-- **A field with a value of its own is on no cycle.** -/
theorem acyclic_of_ok {x : Value} (hv : r.get? f = some v)
    (h : (Expression.evaluate r [] f v).outcome = .ok x) : ¬ TransGen (Refers r) f f := by
  intro hc
  obtain ⟨g, hg, hback⟩ := TransGen.head'_iff.mp hc
  obtain ⟨s, tree, name, hs, hr, hm, rfl, -⟩ := id hg
  rw [hv] at hs
  obtain rfl := Option.some.inj hs
  obtain ⟨a, ha⟩ := evaluateWith_mentions hr rfl hm h
  exact not_mem_chain ha hback hg (by simp)

/-- **The chain does not matter** for a name that is resolved and does not lead back to it. -/
theorem resolve_chain_eq (h : (resolve r [] chain expression name).outcome = .ok a)
    {other : List Key} (ho : ∀ k ∈ other, ¬ ReflTransGen (Refers r) (.text name) k) :
    (resolve r [] other expression name).outcome = .ok a := by
  induction chain, name using chain_induction r generalizing expression a other with
  | step chain name ih =>
    obtain ⟨v, hv⟩ := get?_of_ok h
    cases hn : needsEvaluation v with
    | false =>
      rw [resolve_of_plain hv hn] at h ⊢
      exact h
    | true =>
      obtain ⟨hc, x, hx, ha⟩ := evaluate_of_ok h hv hn
      have hother : other.contains (.text name) = false := by
        simpa using fun hmem => ho _ hmem .refl
      rw [outcome_of_expression hv hn hother]
      refine bind_eq_ok_iff.mpr ⟨x, ?_, ha⟩
      rw [← hx]
      refine evaluateWith_congr (fun _ => rfl) fun s tree next hs hr hm => ?_
      subst hs
      obtain ⟨b, hb⟩ := evaluateWith_mentions hr rfl hm hx
      have hstep : Refers r (.text name) (.text next) := by
        obtain ⟨w, hw⟩ := get?_of_ok hb
        exact ⟨s, tree, next, hv, hr, hm, rfl, Fields.mem_keys_of_get? hw⟩
      rw [hb]
      refine ih _ hv (by simpa using hc) next hb fun k hk hlead => ?_
      rcases List.mem_append.mp hk with hk | hk
      · exact ho k hk (hlead.head hstep)
      · obtain rfl := List.mem_singleton.mp hk
        exact not_mem_chain hb hlead hstep (by simp)

/-! ### Circular references -/

/-- Every field on the chain leads to the name, if the name is a field. -/
def LeadsTo (r : Record) (chain : List Key) (name : String) : Prop :=
  ∀ k ∈ chain, Scalar.text name ∈ r.keys → TransGen (Refers r) k (.text name)

theorem LeadsTo.start (hs : r.get? f = some (.text s)) (hr : ReadsAs f s tree)
    (hm : Mentions tree name) : LeadsTo r [f] name := by
  intro k hk hname
  obtain rfl := List.mem_singleton.mp hk
  exact .single ⟨s, tree, name, hs, hr, hm, rfl, hname⟩

theorem LeadsTo.next {next : String} (h : LeadsTo r chain name)
    (hs : r.get? (.text name) = some (.text s)) (hr : ReadsAs (.text name) s tree)
    (hm : Mentions tree next) : LeadsTo r (chain ++ [.text name]) next := by
  intro k hk hnext
  have hstep : Refers r (.text name) (.text next) := ⟨s, tree, next, hs, hr, hm, rfl, hnext⟩
  rcases List.mem_append.mp hk with hk | hk
  · exact (h k hk (Fields.mem_keys_of_get? hs)).tail hstep
  · obtain rfl := List.mem_singleton.mp hk
    exact .single hstep

theorem cycle_of_resolve (hl : LeadsTo r chain name) (hc : failure.isCircular)
    (h : (resolve r [] chain expression name).outcome = .error failure) :
    ∃ k, TransGen (Refers r) k k := by
  induction chain, name using chain_induction r generalizing expression with
  | step chain name ih =>
    cases hv : r.get? (.text name) with
    | none =>
      rw [resolve_of_none hv] at h
      obtain rfl := Except.error.inj h
      cases hc
    | some v =>
      cases hn : needsEvaluation v with
      | false =>
        rw [resolve_of_plain hv hn] at h
        rw [finishedNumber_error h] at hc
        cases hc
      | true =>
        by_cases hmem : Scalar.text name ∈ chain
        · exact ⟨_, hl _ hmem (Fields.mem_keys_of_get? hv)⟩
        · have hmem : chain.contains (.text name) = false := by simpa using hmem
          rw [outcome_of_expression hv hn hmem] at h
          rcases bind_eq_error_iff.mp h with h | ⟨x, -, hx⟩
          · obtain ⟨s, tree, next, rfl, hr, hm, h⟩ := evaluateWith_circular hc h
            exact ih _ hv hmem next (hl.next hv hr hm) h
          · rw [finishedNumber_error hx] at hc
            cases hc

/-- **A circular reference comes from a cycle.** -/
theorem cycle_of_circular (hv : r.get? f = some v) (hc : failure.isCircular)
    (h : (Expression.evaluate r [] f v).outcome = .error failure) :
    ∃ k, TransGen (Refers r) k k := by
  obtain ⟨s, tree, name, rfl, hr, hm, h⟩ := evaluateWith_circular hc h
  exact cycle_of_resolve (.start hv hr hm) hc h

end Record

end RowPipeline
