import RowPipeline.Expression.Evaluation
import RowPipeline.Proofs.Expression.ClosedText

/-!
# The steps of an evaluation

Case by case, what resolving a name and evaluating a field do. A name without value is missing
(`resolve_of_none`); a plain value counts as it stands (`resolve_of_plain`); an expression is
evaluated on a longer chain (`resolve_of_expression`) unless the name is on the chain
(`resolve_of_chain`). A field is worked out from a tree (`ReadsAs`, `evaluateWith_of_tree`), or its
outcome depends on no name (`evaluateWith_cases`).

A step takes a name out of those not on the chain, so statements about resolving go by
`chain_induction`.
-/

namespace RowPipeline

/-- Whether a failure is a circular reference. -/
def Failure.isCircular : Failure → Bool
  | arithmetic (.circular ..) => true
  | _ => false

theorem Failure.isCircular_of_isNumeric {failure : Failure} (h : failure.isNumeric) :
    failure.isCircular = false := by
  cases failure with
  | arithmetic cause => cases cause <;> first | rfl | simp [isNumeric] at h
  | _ => rfl

theorem Value.toNumber_error {value : Value} {failure : Failure}
    (h : value.toNumber = .error failure) : failure = .signallingNumber := by
  unfold Value.toNumber at h
  split at h
  · cases h
  · cases h
  · split at h
    · cases h
    · exact (Except.error.inj h).symm
  · cases h
  · cases h

theorem Number.isFinite_normalize {a : Number} (h : a.isFinite) : a.normalize.isFinite := by
  cases a with
  | int n => rfl
  | float x =>
    rw [normalize]
    split
    · split
      · rfl
      · exact h
    · exact h

/-- A finite number counts as itself, in normal form; no other number counts. -/
theorem Value.toNumber_ofNumber (a : Number) :
    (ofNumber a).toNumber = .ok (if a.isFinite then some a.normalize else none) := by
  cases a <;> rfl

theorem Value.ofNumber?_injective : Function.Injective Value.ofNumber? := by
  rintro (_ | _ | _) (_ | _ | _) h <;> cases h <;> rfl

namespace Expression

variable {context context' : Record} {allow chain : List Key} {expression name s : String}
  {field : Key} {value : Value} {tree : Tree} {failure : Failure}

/-! ### Resolving a name -/

theorem numberOf_error (h : numberOf name value = .error failure) : failure.isCircular = false := by
  rcases bind_eq_error_iff.mp h with ht | ⟨a, -, h⟩
  · rw [Value.toNumber_error ht]
    rfl
  · cases a with
    | none =>
      obtain rfl := Except.error.inj h
      rfl
    | some a => cases h

/-- The number that a finished value gives where a name stands. -/
def finishedNumber (name : String) (value : Value) : Except Failure Number :=
  if value.isNull then .error (.arithmetic (.missingVariable name)) else numberOf name value

theorem finishedNumber_error (h : finishedNumber name value = .error failure) :
    failure.isCircular = false := by
  unfold finishedNumber at h
  split at h
  · obtain rfl := Except.error.inj h
    rfl
  · exact numberOf_error h

theorem needsEvaluation_iff : needsEvaluation value ↔
    ∃ s, value = .text s ∧ (hasMarker s ∨ isClosed s) := by
  unfold needsEvaluation
  split
  · simp
  · rename_i hs
    simpa using fun s he => absurd he (hs s)

theorem isNull_of_needsEvaluation (hn : needsEvaluation value) : value.isNull = false := by
  obtain ⟨s, rfl, -⟩ := needsEvaluation_iff.mp hn
  rfl

theorem resolve_of_none (h : context.get? (.text name) = none) :
    resolve context allow chain expression name =
      Traced.fail (.arithmetic (.missingVariable name)) := by
  rw [resolve]
  split
  · rfl
  · rename_i v hv
    rw [h] at hv
    cases hv

/-- What resolving a name that has a value does. -/
theorem resolve_of_some (h : context.get? (.text name) = some value) :
    resolve context allow chain expression name =
      if needsEvaluation value then
        if chain.contains (.text name) then
          Traced.fail (.arithmetic (.circular expression (chain.map Scalar.label ++ [name])))
        else evaluateWith (resolve context (allowAlso allow name) (chain ++ [.text name])) context
          (allowAlso allow name) (.text name) value >>=
            fun result => Traced.lift (finishedNumber name result)
      else Traced.lift (finishedNumber name value) := by
  rw [resolve]
  split
  · rename_i hv
    rw [h] at hv
    cases hv
  rename_i v hv
  rw [h] at hv
  obtain rfl := Option.some.inj hv
  cases hn : needsEvaluation value with
  | false =>
    rw [if_neg Bool.false_ne_true, if_neg Bool.false_ne_true, finishedNumber]
    split <;> rfl
  | true =>
    rw [if_neg (by simp [isNull_of_needsEvaluation hn]), if_pos rfl, if_pos rfl]
    split
    · rfl
    · refine bind_congr fun result => ?_
      unfold finishedNumber
      split <;> rfl

theorem resolve_of_plain (h : context.get? (.text name) = some value)
    (hn : needsEvaluation value = false) :
    resolve context allow chain expression name = Traced.lift (finishedNumber name value) := by
  rw [resolve_of_some h, if_neg (by rw [hn]; simp)]

/-- A finite number counts in normal form. -/
theorem resolve_of_number {a : Number} (h : context.get? (.text name) = some (.ofNumber a))
    (ha : a.isFinite) :
    (resolve context allow chain expression name).outcome = .ok a.normalize := by
  have hn : needsEvaluation (.ofNumber a) = false := by cases a <;> rfl
  have hnull : (Value.ofNumber a).isNull = false := by cases a <;> rfl
  rw [resolve_of_plain h hn, Traced.outcome_lift, finishedNumber, hnull, numberOf,
    Value.toNumber_ofNumber, if_pos ha]
  rfl

/-- A whole number counts as it stands. -/
theorem resolve_of_int {k : Int} (h : context.get? (.text name) = some (.int k)) :
    (resolve context allow chain expression name).outcome = .ok (.int k) :=
  resolve_of_number (a := .int k) h rfl

theorem resolve_of_chain (h : context.get? (.text name) = some value) (hn : needsEvaluation value)
    (hc : chain.contains (.text name)) :
    resolve context allow chain expression name =
      Traced.fail (.arithmetic (.circular expression (chain.map Scalar.label ++ [name]))) := by
  rw [resolve_of_some h, if_pos hn, if_pos hc]

theorem resolve_of_expression (h : context.get? (.text name) = some value)
    (hn : needsEvaluation value) (hc : chain.contains (.text name) = false) :
    resolve context allow chain expression name =
      evaluateWith (resolve context (allowAlso allow name) (chain ++ [.text name])) context
        (allowAlso allow name) (.text name) value >>=
          fun result => Traced.lift (finishedNumber name result) := by
  rw [resolve_of_some h, if_pos hn, if_neg (by rw [hc]; simp)]

/-- **Induction along the chain**: from a name that has a value and is not on the chain, to every
name on the chain with it. -/
theorem chain_induction (context : Record) {motive : List Key → String → Prop}
    (step : ∀ chain name, (∀ value, context.get? (.text name) = some value →
      chain.contains (.text name) = false → ∀ next, motive (chain ++ [.text name]) next) →
      motive chain name) (chain : List Key) (name : String) : motive chain name := by
  induction hn : (unvisited context chain).length using Nat.strongRecOn generalizing chain name with
  | _ n ih =>
    subst hn
    exact step chain name fun value hv hc next => ih _ (unvisited_lt hv hc) _ _ rfl

/-! ### Resolving the operands -/

section Operands

variable {f g : String → Traced Number}

theorem resolveOperands_congr : ∀ {ops : List (String × Bool)} (done : List Number),
    (∀ op ∈ ops, (f op.1).outcome = (g op.1).outcome) →
    (resolveOperands f tree done ops).outcome = (resolveOperands g tree done ops).outcome
  | [], _, _ => rfl
  | (name, divisor) :: ops, done, h => by
    have hname := h (name, divisor) (by simp)
    simp only [resolveOperands, Traced.outcome_bind]
    rw [hname]
    congr 1
    funext a
    split
    · rfl
    · exact resolveOperands_congr _ fun op hop => h op (by simp [hop])

/-- If all operands are resolved, each one is. -/
theorem resolveOperands_ok : ∀ {ops : List (String × Bool)} {done values : List Number},
    (resolveOperands f tree done ops).outcome = .ok values →
    ∀ op ∈ ops, ∃ a, (f op.1).outcome = .ok a
  | [], _, _, _ => by simp
  | (name, divisor) :: ops, done, values, h => by
    obtain ⟨a, ha, h⟩ := Traced.bind_ok_iff.mp h
    intro op hop
    rcases List.mem_cons.mp hop with rfl | hop
    · exact ⟨a, ha⟩
    · dsimp only at h
      split at h
      · obtain ⟨source, -, h⟩ := Traced.bind_ok_iff.mp h
        cases h
      · exact resolveOperands_ok h op hop

theorem renderBare_error (h : tree.renderBare = .error failure) : failure.isNumeric := by
  rcases Tree.renderWith_error h with hn | ⟨n, -, hw⟩
  · exact hn
  · cases hw

/-- If the operands are not resolved, one of them fails or a divisor is zero. -/
theorem resolveOperands_error : ∀ {ops : List (String × Bool)} {done : List Number},
    (resolveOperands f tree done ops).outcome = .error failure →
    failure.isNumeric ∨ ∃ op ∈ ops, (f op.1).outcome = .error failure
  | [], _, h => by cases h
  | (name, divisor) :: ops, done, h => by
    rcases Traced.bind_error_iff.mp h with ha | ⟨a, -, h⟩
    · exact Or.inr ⟨(name, divisor), by simp, ha⟩
    · dsimp only at h
      split at h
      · rcases Traced.bind_error_iff.mp h with hr | ⟨source, -, h⟩
        · exact Or.inl (renderBare_error hr)
        · obtain rfl := Except.error.inj h
          exact Or.inl rfl
      · rcases resolveOperands_error h with hn | ⟨op, hop, ho⟩
        · exact Or.inl hn
        · exact Or.inr ⟨op, by simp [hop], ho⟩

end Operands

/-- The operands are the names. -/
theorem map_fst_operandsAfter (divisor : Bool) (tree : Tree) :
    (tree.operandsAfter divisor).map Prod.fst = tree.names.map Prod.fst := by
  induction tree generalizing divisor with
  | literal a => rfl
  | name text quoted => rfl
  | binary op left right ihl ihr => simp [Tree.operandsAfter, Tree.names, ihl, ihr]
  | hole => rfl

/-- The name `name` occurs in the tree. -/
def Mentions (tree : Tree) (name : String) : Prop := name ∈ tree.names.map Prod.fst

theorem mentions_of_firstName? (h : tree.firstName? = some name) : Mentions tree name := by
  obtain ⟨n, hn, rfl⟩ := Option.map_eq_some_iff.mp h
  exact List.mem_map_of_mem (List.mem_of_mem_head? hn)

theorem mentions_of_operand {op : String × Bool} (h : op ∈ tree.operands) : Mentions tree op.1 := by
  rw [Mentions, ← map_fst_operandsAfter false]
  exact List.mem_map_of_mem h

theorem exists_operand (h : Mentions tree name) : ∃ op ∈ tree.operands, op.1 = name := by
  rw [Mentions, ← map_fst_operandsAfter false] at h
  exact List.mem_map.mp h

/-! ### The value of a tree -/

/-- What a tree comes to does not depend on the text and the field that it stands in. -/
theorem finish_outcome (s : String) (field : Key) (tree : Tree) (values : List Number) :
    (finish s field tree values).outcome = (tree.fill values).1.renderBare.bind fun source =>
      ((tree.fill values).1.compute (fun _ => .error .missingKey) source).bind fun a =>
        a.finalize source := by
  have hemit : ∀ (x : Except Failure (Option Number)) (source : String),
      (x.bind fun result => (Traced.emit (.evaluated s field source result) >>=
        fun _ => pure result : Traced (Option Number)).outcome) = x := by
    intro x source
    cases x <;> rfl
  simp only [finish, Traced.outcome_bind, Traced.outcome_monadLift]
  congr 1
  funext source
  congr 1
  funext a
  exact hemit _ source

theorem finish_error {values : List Number}
    (h : (finish s field tree values).outcome = .error failure) : failure.isCircular = false := by
  rcases Traced.bind_error_iff.mp h with hr | ⟨source, -, h⟩
  · exact Failure.isCircular_of_isNumeric (renderBare_error hr)
  rcases Traced.bind_error_iff.mp h with hc | ⟨computed, -, h⟩
  · rcases Tree.compute_error hc with hn | ⟨n, -, hm⟩
    · exact Failure.isCircular_of_isNumeric hn
    · obtain rfl := Except.error.inj hm
      rfl
  rcases Traced.bind_error_iff.mp h with hf | ⟨result, -, h⟩
  · exact Failure.isCircular_of_isNumeric (Number.finalize_error hf)
  · cases h

/-- A text that is worked out as a tree in a field. -/
structure ReadsAs (field : Key) (s : String) (tree : Tree) : Prop where
  evaluated : field ≠ timestamp
  marked : hasMarker s
  unclosed : isClosed s = false
  parsed : Tree.parse (body s) = .ok tree

theorem ReadsAs.needsEvaluation (h : ReadsAs field s tree) : needsEvaluation (.text s) :=
  needsEvaluation_iff.mpr ⟨s, rfl, Or.inl h.marked⟩

/-! ### Evaluating a field -/

theorem parseFor_ok (h : parseFor s field = .ok tree) : Tree.parse (body s) = .ok tree := by
  unfold parseFor at h
  split at h
  · rename_i hp
    rw [hp, Except.ok.inj h]
  · cases h
  · cases h
  · cases h

theorem parseFor_error (h : parseFor s field = .error failure) : failure.isCircular = false := by
  unfold parseFor at h
  split at h
  · cases h
  · obtain rfl := Except.error.inj h
    rfl
  · obtain rfl := Except.error.inj h
    rfl
  · rename_i hl hp ht
    obtain rfl := Except.error.inj h
    rcases Tree.parse_error ht with rfl | ⟨ch, p, rfl⟩ | ⟨e, rfl⟩ <;> rfl

section Evaluating

variable {resolve resolve' : String → String → Traced Number}

/-- **The value of a tree** is that of its operands, first to last. -/
theorem evaluateWith_of_tree (h : ReadsAs field s tree) (ha : allows allow field) :
    evaluateWith resolve context allow field (.text s) =
      resolveOperands (resolve s) tree [] tree.operands >>= fun values =>
        Value.ofNumber? <$> finish s field tree values := by
  have hp : parseFor s field = .ok tree := by
    rw [parseFor, h.parsed]
  rw [evaluateWith, if_neg h.evaluated]
  simp only [h.needsEvaluation, ha, h.unclosed, hp]
  rfl

/-- The value of a tree with one operand. -/
theorem evaluateWith_of_one {a : Number} (hr : ReadsAs field s tree) (ha : allows allow field)
    (ho : tree.operands = [(name, false)]) (h : (resolve s name).outcome = .ok a) :
    (evaluateWith resolve context allow field (.text s)).outcome =
      (finish s field tree [a]).outcome.map Value.ofNumber? := by
  have hv : (resolveOperands (resolve s) tree [] [(name, false)]).outcome = .ok [a] :=
    Traced.bind_ok_iff.mpr ⟨a, h, rfl⟩
  rw [evaluateWith_of_tree hr ha, ho, Traced.outcome_bind, hv, ← Traced.outcome_map]
  rfl

theorem evaluateWith_timestamp : evaluateWith resolve context allow timestamp value =
    pure ((context.get? timestamp).getD value) := by
  unfold evaluateWith
  exact if_pos rfl

/-- A value that is no expression, or is not allowed, comes back unchanged. -/
theorem evaluateWith_of_inert (hf : field ≠ timestamp)
    (h : (needsEvaluation value && allows allow field) = false) :
    evaluateWith resolve context allow field value = pure value := by
  unfold evaluateWith
  rw [if_neg hf]
  split
  · rename_i s
    rw [if_pos (by rw [← Bool.not_and, h]; rfl)]
  · rfl

/-- A closed text has its own value, whatever the context. -/
theorem evaluateWith_of_closed (hf : field ≠ timestamp) (ha : allows allow field) (hc : isClosed s) :
    evaluateWith resolve context allow field (.text s) =
      Traced.lift (Value.ofNumber? <$> evaluateClosed s) := by
  have hn : needsEvaluation (.text s) := needsEvaluation_iff.mpr ⟨s, rfl, Or.inr hc⟩
  rw [evaluateWith, if_neg hf]
  simp only [hn, ha, hc]
  rfl

/-- **A field is a tree or depends on no name**: its outcome is the same then, whatever the names are,
and is no circular reference. -/
theorem evaluateWith_cases (context : Record) (allow : List Key) (field : Key) (value : Value) :
    (∃ s tree, value = .text s ∧ ReadsAs field s tree ∧ allows allow field) ∨
    ∃ outcome : Except Failure Value,
      (∀ failure, outcome = .error failure → failure.isCircular = false) ∧
      ∀ resolve context', (field = timestamp → context'.get? timestamp = context.get? timestamp) →
        (evaluateWith resolve context' allow field value).outcome = outcome := by
  by_cases hf : field = timestamp
  · refine Or.inr ⟨.ok ((context.get? timestamp).getD value), by simp, fun resolve context' ht => ?_⟩
    rw [hf, evaluateWith_timestamp, ht hf]
    rfl
  by_cases hn : needsEvaluation value ∧ allows allow field
  · obtain ⟨hn, ha⟩ := hn
    obtain ⟨s, rfl, hs⟩ := needsEvaluation_iff.mp hn
    by_cases hc : isClosed s
    · refine Or.inr ⟨.ofNumber? <$> evaluateClosed s, fun failure he => ?_, fun resolve context' _ => ?_⟩
      · exact Failure.isCircular_of_isNumeric (evaluateClosed_error hc (map_eq_error_iff.mp he))
      · rw [evaluateWith_of_closed hf ha hc]
        rfl
    · have hm : hasMarker s := hs.resolve_right hc
      rcases hp : parseFor s field with failure | tree
      · refine Or.inr ⟨.error failure, ?_, fun resolve context' _ => ?_⟩
        · rintro failure ⟨rfl⟩
          exact parseFor_error hp
        · rw [evaluateWith, if_neg hf]
          simp only [hn, ha, hc, hp]
          rfl
      · exact Or.inl ⟨s, tree, rfl, ⟨hf, hm, by simpa using hc, parseFor_ok hp⟩, ha⟩
  · refine Or.inr ⟨.ok value, by simp, fun resolve context' _ => ?_⟩
    rw [evaluateWith_of_inert hf (by simpa using hn)]
    rfl

/-- The outcome of a field other than `timestamp` depends on the outcomes of the names in its tree only. -/
theorem evaluateWith_congr (ht : field = timestamp → context'.get? timestamp = context.get? timestamp)
    (h : ∀ s tree name, value = .text s → ReadsAs field s tree → Mentions tree name →
      (resolve' s name).outcome = (resolve s name).outcome) :
    (evaluateWith resolve' context' allow field value).outcome =
      (evaluateWith resolve context allow field value).outcome := by
  rcases evaluateWith_cases context allow field value with ⟨s, tree, rfl, hr, ha⟩ | ⟨_, -, ho⟩
  · rw [evaluateWith_of_tree hr ha, evaluateWith_of_tree hr ha, Traced.outcome_bind,
      Traced.outcome_bind, resolveOperands_congr _ fun op hop =>
        h s tree op.1 rfl hr (mentions_of_operand hop)]
  · rw [ho _ _ ht, ho _ _ fun _ => rfl]

/-- A field has a value only if the names in its tree have one. -/
theorem evaluateWith_mentions {result : Value} (hr : ReadsAs field s tree)
    (ha : allows allow field) (hm : Mentions tree name)
    (h : (evaluateWith resolve context allow field (.text s)).outcome = .ok result) :
    ∃ a, (resolve s name).outcome = .ok a := by
  rw [evaluateWith_of_tree hr ha] at h
  obtain ⟨values, hv, -⟩ := Traced.bind_ok_iff.mp h
  obtain ⟨op, hop, rfl⟩ := exists_operand hm
  exact resolveOperands_ok hv op hop

/-- A field fails as its first operand does. -/
theorem evaluateWith_of_first {op : String × Bool} {ops : List (String × Bool)}
    (hr : ReadsAs field s tree) (ha : allows allow field) (ho : tree.operands = op :: ops)
    (h : (resolve s op.1).outcome = .error failure) :
    (evaluateWith resolve context allow field (.text s)).outcome = .error failure := by
  rw [evaluateWith_of_tree hr ha, ho, Traced.outcome_bind, resolveOperands, Traced.outcome_bind, h]
  rfl

/-- A circular reference comes from a name in the tree. -/
theorem evaluateWith_circular (hc : failure.isCircular)
    (h : (evaluateWith resolve context allow field value).outcome = .error failure) :
    ∃ s tree name, value = .text s ∧ ReadsAs field s tree ∧ Mentions tree name ∧
      (resolve s name).outcome = .error failure := by
  rcases evaluateWith_cases context allow field value with ⟨s, tree, rfl, hr, ha⟩ | ⟨_, he, ho⟩
  · rw [evaluateWith_of_tree hr ha] at h
    rcases Traced.bind_error_iff.mp h with hv | ⟨values, -, h⟩
    · rcases resolveOperands_error hv with hn | ⟨op, hop, hf⟩
      · rw [Failure.isCircular_of_isNumeric hn] at hc
        cases hc
      · exact ⟨s, tree, op.1, rfl, hr, mentions_of_operand hop, hf⟩
    · rw [Traced.outcome_map] at h
      rw [finish_error (map_eq_error_iff.mp h)] at hc
      cases hc
  · rw [ho _ _ fun _ => rfl] at h
    rw [he _ h] at hc
    cases hc

theorem needsEvaluation_ofNumber? (a : Option Number) : needsEvaluation (.ofNumber? a) = false := by
  rcases a with _ | a
  · rfl
  · cases a <;> rfl

/-- An expression that is evaluated comes out as a number or has no value. -/
theorem evaluateWith_number {result : Value} (hf : field ≠ timestamp) (hn : needsEvaluation value)
    (ha : allows allow field)
    (h : (evaluateWith resolve context allow field value).outcome = .ok result) :
    ∃ a, result = .ofNumber? a := by
  obtain ⟨s, rfl, hs⟩ := needsEvaluation_iff.mp hn
  by_cases hc : isClosed s
  · rw [evaluateWith_of_closed hf ha hc] at h
    obtain ⟨a, -, rfl⟩ := map_eq_ok_iff.mp h
    exact ⟨a, rfl⟩
  · rw [evaluateWith, if_neg hf] at h
    simp only [hn, ha, hc] at h
    obtain ⟨tree, -, h⟩ := Traced.bind_ok_iff.mp h
    obtain ⟨values, -, h⟩ := Traced.bind_ok_iff.mp h
    rw [Traced.outcome_map] at h
    obtain ⟨a, -, rfl⟩ := map_eq_ok_iff.mp h
    exact ⟨a, rfl⟩

/-- An evaluated field keeps its value or holds a number. -/
theorem evaluateWith_ok {result : Value} (hf : field ≠ timestamp)
    (h : (evaluateWith resolve context allow field value).outcome = .ok result) :
    result = value ∨ ∃ a, result = .ofNumber? a := by
  by_cases hn : needsEvaluation value ∧ allows allow field
  · exact Or.inr (evaluateWith_number hf hn.1 hn.2 h)
  · rw [evaluateWith_of_inert hf (by simpa using hn)] at h
    exact Or.inl (Except.ok.inj h).symm

end Evaluating

end Expression

end RowPipeline
