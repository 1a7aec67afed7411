import RowPipeline.Proofs.Expression.NumberTexts
import RowPipeline.Proofs.Fields

/-!
# What an evaluation reads

The outcome of a field depends on less than it is given.

* Of the allow list it depends on whether the field is allowed, and on nothing else: a name that is looked up
  is allowed along with the list, so the list keeps no name back on any chain (`resolve_allow`).
* Of the context it depends on the names that its text refers to (`Reachable`): those that the text mentions,
  and those that the expression of such a name mentions. Contexts that agree on them give every one of
  these names the same number or the same failure, whatever chain leads to it (`resolve_of_agree`).

Both go by induction along the chain, one name at a time.
-/

namespace RowPipeline.Expression

variable {context context' : Record} {allow chain : List Key} {expression name s : String} {field : Key}
  {value : Value}

/-! ### The allow list -/

/-- The allow list is asked about the field only. -/
theorem evaluateWith_allow {resolve : String → String → Traced Number} {allow' : List Key}
    (h : allows allow field = allows allow' field) :
    evaluateWith resolve context allow field value = evaluateWith resolve context allow' field value := by
  unfold evaluateWith
  rw [h]

/-- **No name is kept back**: with an allow list a name does what it does without. -/
theorem resolve_allow (context : Record) (chain : List Key) (name : String) : ∀ allow expression,
    resolve context allow chain expression name = resolve context [] chain expression name := by
  induction chain, name using chain_induction context with
  | step chain name ih =>
    intro allow expression
    cases hv : context.get? (.text name) with
    | none => rw [resolve_of_none hv, resolve_of_none hv]
    | some value =>
      rw [resolve_of_some hv, resolve_of_some hv]
      split
      · split
        · rfl
        · rename_i hc
          have hc : chain.contains (.text name) = false := by simpa using hc
          have hnames : resolve context (allowAlso allow name) (chain ++ [.text name]) =
              resolve context (allowAlso [] name) (chain ++ [.text name]) := by
            funext expression' next
            rw [ih value hv hc next (allowAlso allow name), ih value hv hc next (allowAlso [] name)]
          have hallowed : allows (allowAlso allow name) (.text name) =
              allows (allowAlso [] name) (.text name) := by
            rw [allows_allowAlso allow name, allows_allowAlso [] name]
          rw [hnames, evaluateWith_allow hallowed]
      · rfl

/-- **The allow list decides about the field alone.** A field that is on the list is evaluated as without a
list, with the same outcome and the same events on the way; a field that is not on it keeps its value. -/
theorem evaluate_allow (context : Record) (allow : List Key) (field : Key) (value : Value)
    (hallow : allow ≠ []) (hf : field ≠ timestamp) :
    (field ∈ allow → evaluate context allow field value = evaluate context [] field value) ∧
      (field ∉ allow → evaluate context allow field value = pure value) := by
  have hallows : allows allow field = decide (field ∈ allow) := by
    have hempty : allow.isEmpty = false := by simpa using hallow
    rw [allows, hempty, Bool.false_or, List.contains_eq_mem]
  constructor
  · intro hmem
    have hnames : resolve context allow [field] = resolve context [] [field] := by
      funext expression name
      exact resolve_allow context [field] name allow expression
    have hallowed : allows allow field = allows [] field := by
      rw [hallows, decide_eq_true hmem]
      rfl
    rw [evaluate, hnames, evaluateWith_allow hallowed]
    rfl
  · intro hmem
    have hrefused : (needsEvaluation value && allows allow field) = false := by
      rw [hallows, decide_eq_false hmem, Bool.and_false]
    exact evaluateWith_of_inert hf hrefused

/-- A row whose total is worked out from another field. -/
def totalled : Record :=
  ⟨[(.text "total", .text "=cores*6"), (.text "cores", .int 4)], by decide⟩

theorem readsAs_total :
    ReadsAs (.text "total") "=cores*6" (.binary .mul (.name "cores" false) (.literal (.int 6))) :=
  ⟨by decide, by decide, by decide, by cbv⟩

theorem readsAs_share :
    ReadsAs (.text "share") "=total*2" (.binary .mul (.name "total" false) (.literal (.int 2))) :=
  ⟨by decide, by decide, by decide, by cbv⟩

theorem evaluate_totalled :
    (evaluate totalled [] (.text "share") (.text "=total*2")).outcome = .ok (.int 48) := by
  have hcores : (resolve totalled [] [.text "share", .text "total"] "=cores*6" "cores").outcome =
      .ok (.int 4) := resolve_of_int rfl
  have htotal : (resolve totalled [] [.text "share"] "=total*2" "total").outcome = .ok (.int 24) := by
    have hproduct : (finish "=cores*6" (.text "total")
        (.binary .mul (.name "cores" false) (.literal (.int 6))) [.int 4]).outcome =
          .ok (some (.int 24)) := by decide +kernel
    rw [resolve_of_expression rfl readsAs_total.needsEvaluation (by decide), Traced.outcome_bind]
    refine bind_eq_ok_iff.mpr ⟨.int 24, ?_, rfl⟩
    refine (evaluateWith_of_one readsAs_total rfl rfl hcores).trans ?_
    rw [hproduct]
    rfl
  have hproduct : (finish "=total*2" (.text "share")
      (.binary .mul (.name "total" false) (.literal (.int 2))) [.int 24]).outcome =
        .ok (some (.int 48)) := by decide +kernel
  rw [evaluate, evaluateWith_of_one readsAs_share rfl rfl htotal, hproduct]
  rfl

/-- The names on the way are not on the list, and are looked up all the same. -/
theorem evaluate_allow_of_totalled :
    [Scalar.text "share"] ≠ [] ∧ Scalar.text "share" ≠ timestamp ∧ Scalar.text "rest" ≠ timestamp ∧
      (evaluate totalled [.text "share"] (.text "share") (.text "=total*2")).outcome = .ok (.int 48) ∧
      evaluate totalled [.text "share"] (.text "rest") (.text "=total*2") = pure (.text "=total*2") := by
  have hallow : [Scalar.text "share"] ≠ [] := by decide
  have hf : Scalar.text "share" ≠ timestamp := by decide
  have hf' : Scalar.text "rest" ≠ timestamp := by decide
  refine ⟨hallow, hf, hf', ?_, ?_⟩
  · have hsame := (evaluate_allow totalled [.text "share"] (.text "share") (.text "=total*2") hallow hf).1
    rw [hsame (by decide)]
    exact evaluate_totalled
  · exact (evaluate_allow totalled [.text "share"] (.text "rest") (.text "=total*2") hallow hf').2 (by decide)

/-! ### The names that a text refers to -/

/-- The text refers to a name: it mentions the name, or the expression of a name that it refers to does. -/
inductive Reachable (context : Record) (s : String) : String → Prop
  | mention {tree : Tree} {name : String} :
      Tree.parse (body s) = .ok tree → Mentions tree name → Reachable context s name
  | next {name t : String} {tree : Tree} {next : String} :
      Reachable context s name → context.get? (.text name) = some (.text t) →
      ReadsAs (.text name) t tree → Mentions tree next → Reachable context s next

/-- Two contexts hold the same under every name that the text refers to. -/
def AgreeOn (context context' : Record) (s : String) : Prop :=
  ∀ name, Reachable context s name → context'.get? (.text name) = context.get? (.text name)

/-- **A name that the text refers to** has the same outcome in contexts that agree. -/
theorem resolve_of_agree (h : AgreeOn context context' s) (chain : List Key) (name : String) :
    ∀ allow expression, Reachable context s name →
      (resolve context' allow chain expression name).outcome =
        (resolve context allow chain expression name).outcome := by
  induction chain, name using chain_induction context with
  | step chain name ih =>
    intro allow expression hreach
    have hget := h name hreach
    cases hv : context.get? (.text name) with
    | none => rw [resolve_of_none hv, resolve_of_none (hget.trans hv)]
    | some value =>
      rw [resolve_of_some hv, resolve_of_some (hget.trans hv)]
      split
      · split
        · rfl
        · rename_i hc
          have hc : chain.contains (.text name) = false := by simpa using hc
          have hstamp : Scalar.text name = timestamp →
              context'.get? timestamp = context.get? timestamp := by
            intro ht
            rw [← ht]
            exact hget
          rw [Traced.outcome_bind, Traced.outcome_bind]
          refine congrArg (Except.bind · _) (evaluateWith_congr hstamp ?_)
          intro t tree next ht hread hmention
          subst ht
          exact ih (.text t) hv hc next _ t (hreach.next hv hread hmention)
      · rfl

theorem evaluate_of_agree (hf : field ≠ timestamp) (h : AgreeOn context context' s) :
    (evaluate context' allow field (.text s)).outcome =
      (evaluate context allow field (.text s)).outcome := by
  refine evaluateWith_congr (fun ht => absurd ht hf) ?_
  intro t tree name ht hread hmention
  obtain rfl : s = t := by simpa using ht
  exact resolve_of_agree h [field] name allow s (.mention hread.parsed hmention)

/-- A field that the text does not refer to makes no difference, whatever becomes of it. -/
theorem agreeOn_of_unreachable {k : Key} (hk : ∀ name, Reachable context s name → k ≠ .text name)
    (h : ∀ k', k' ≠ k → context'.get? k' = context.get? k') : AgreeOn context context' s := by
  intro name hreach
  exact h (.text name) (Ne.symm (hk name hreach))

/-- **An evaluation reads what its text refers to.** Contexts that agree on the names that a text refers to
give the same value or the same failure. So a field that it does not refer to may be added, changed or
removed. -/
theorem evaluate_reads (context : Record) (allow : List Key) (field : Key) (s : String)
    (hf : field ≠ timestamp) :
    (∀ context', AgreeOn context context' s →
      (evaluate context' allow field (.text s)).outcome =
        (evaluate context allow field (.text s)).outcome) ∧
    ∀ k, (∀ name, Reachable context s name → k ≠ .text name) →
      (∀ v, (evaluate (context.insert k v) allow field (.text s)).outcome =
        (evaluate context allow field (.text s)).outcome) ∧
      (evaluate (context.erase k) allow field (.text s)).outcome =
        (evaluate context allow field (.text s)).outcome := by
  refine ⟨fun context' h => evaluate_of_agree hf h, fun k hk => ⟨fun v => ?_, ?_⟩⟩
  · refine evaluate_of_agree hf (agreeOn_of_unreachable hk ?_)
    intro k' hne
    rw [Fields.get?_insert, if_neg (Ne.symm hne)]
  · refine evaluate_of_agree hf (agreeOn_of_unreachable hk ?_)
    intro k' hne
    exact Fields.get?_erase_of_ne context hne

theorem reachable_totalled {name : String} (h : Reachable totalled "=total*2" name) :
    name = "total" ∨ name = "cores" := by
  induction h with
  | mention hparse hmention =>
    obtain rfl := Except.ok.inj (readsAs_share.parsed.symm.trans hparse)
    exact Or.inl (List.mem_singleton.mp hmention)
  | next _ hget hread hmention ih =>
    rcases ih with rfl | rfl
    · obtain rfl := Scalar.text.inj (Value.scalar.inj (Option.some.inj hget))
      obtain rfl := Except.ok.inj (readsAs_total.parsed.symm.trans hread.parsed)
      exact Or.inr (List.mem_singleton.mp hmention)
    · cases hget

/-- A note that cannot be evaluated itself makes no difference, and neither does the order of the fields. -/
theorem evaluate_reads_of_totalled :
    let shuffled : Record := ⟨[(.text "note", .text "=note"), (.text "cores", .int 4),
      (.text "total", .text "=cores*6")], by decide⟩
    Scalar.text "share" ≠ timestamp ∧ AgreeOn totalled shuffled "=total*2" ∧
      (∀ name, Reachable totalled "=total*2" name → Scalar.text "note" ≠ .text name) ∧
      (evaluate shuffled [] (.text "share") (.text "=total*2")).outcome = .ok (.int 48) ∧
      (evaluate (totalled.insert (.text "note") (.text "=1/0")) [] (.text "share")
        (.text "=total*2")).outcome = .ok (.int 48) := by
  intro shuffled
  have hf : Scalar.text "share" ≠ timestamp := by decide
  have hagree : AgreeOn totalled shuffled "=total*2" := by
    intro name hreach
    rcases reachable_totalled hreach with rfl | rfl <;> rfl
  have hnote : ∀ name, Reachable totalled "=total*2" name → Scalar.text "note" ≠ .text name := by
    intro name hreach
    rcases reachable_totalled hreach with rfl | rfl <;> decide
  obtain ⟨hsame, hunread⟩ := evaluate_reads totalled [] (.text "share") "=total*2" hf
  refine ⟨hf, hagree, hnote, ?_, ?_⟩
  · rw [hsame shuffled hagree]
    exact evaluate_totalled
  · rw [(hunread (.text "note") hnote).1]
    exact evaluate_totalled

end RowPipeline.Expression
