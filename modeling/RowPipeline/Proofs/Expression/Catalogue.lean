import RowPipeline.Proofs.Expression.Evaluation
import RowPipeline.Proofs.Expression.Magnitude
import RowPipeline.Proofs.Fields

/-!
# Errors outside of the catalogue

Evaluating a text ends in a value or in an error of arithmetic, whatever the text, the names and the values
are, with one exception: numbers that are too large. `Exceeds` lists the places. A text on the way holds a
numeral of too many digits; all operands of a text are resolved and what they make is too large; a divisor is
zero and a number is too long to be shown in the report of it. On the way are the text of the field and the
texts of names that evaluation comes to, because the operands in front of them are resolved.

Evaluation leaves the catalogue at these places and nowhere else (`endsIn_evaluate_iff`). A single text does
so by itself or at one of its operands (`endsIn_evaluateWith_iff`, `not_endsIn_resolveOperands_iff`), an
operand through its own text (`endsIn_resolve_iff`), and both directions go along the chain.
-/

namespace RowPipeline

/-- Whether a value has no parts and is no decimal. -/
def Value.isBasic : Value → Bool
  | .scalar (.decimal _) => false
  | .scalar _ => true
  | _ => false

theorem Value.isBasic_ofNumber? (a : Option Number) : (ofNumber? a).isBasic := by
  rcases a with _ | (n | x) <;> rfl

namespace Expression

variable {context : Record} {allow chain : List Key} {field : Key} {expression name s : String}
  {value : Value} {tree : Tree} {G : Failure → Prop}

/-! ### Numbers of names -/

/-- A value without parts gives a number, or an error of the catalogue. -/
theorem endsIn_finishedNumber (hG : Failure.Catalogue G) (hb : value.isBasic) :
    EndsIn G (finishedNumber name value) := by
  have hnumber : ∃ a, value.toNumber = .ok a := by
    cases value with
    | scalar k =>
      cases k with
      | decimal d => cases hb
      | _ => exact ⟨_, rfl⟩
    | list items => cases hb
    | dict entries => cases hb
  obtain ⟨a, ha⟩ := hnumber
  unfold finishedNumber
  split
  · exact hG.endsIn _
  · have hread : EndsIn G value.toNumber := by
      rw [ha]
      exact endsIn_ok a
    refine endsIn_bind_iff.mpr ⟨hread, fun b _ => ?_⟩
    cases b with
    | none => exact hG.endsIn _
    | some b => exact endsIn_ok b

/-! ### Operands -/

section Operands

variable {f : String → Traced Number} {before after ops : List (String × Bool)}
  {done given values : List Number}

/-- Operands that come to numbers, and no divisor among them to zero. -/
def Resolved (f : String → Traced Number) (ops : List (String × Bool)) (values : List Number) : Prop :=
  List.Forall₂ (fun op a => (f op.1).outcome = .ok a ∧ (op.2 && a.isZero) = false) ops values

theorem resolveOperands_append (h : Resolved f before given) :
    (resolveOperands f tree done (before ++ after)).outcome =
      (resolveOperands f tree (done ++ given) after).outcome := by
  induction h generalizing done with
  | nil => rw [List.append_nil, List.nil_append]
  | @cons op a before given ha _ ih =>
    have hstep : (resolveOperands f tree done (op :: (before ++ after))).outcome =
        (resolveOperands f tree (done ++ [a]) (before ++ after)).outcome := by
      rw [resolveOperands, Traced.outcome_bind, ha.1]
      change (if op.2 && a.isZero then _ else _ : Traced _).outcome = _
      rw [ha.2, if_neg Bool.false_ne_true]
    rw [List.cons_append, hstep, ih, List.append_assoc, List.singleton_append]

/-- All operands are resolved iff each one is and no divisor is zero. -/
theorem resolveOperands_ok_iff : (resolveOperands f tree done ops).outcome = .ok values ↔
    ∃ given, Resolved f ops given ∧ values = done ++ given := by
  constructor
  · intro h
    induction ops generalizing done with
    | nil => exact ⟨[], .nil, by rw [List.append_nil]; exact (Except.ok.inj h).symm⟩
    | cons op ops ih =>
      obtain ⟨a, ha, h⟩ := Traced.bind_ok_iff.mp h
      dsimp only at h
      split at h
      · obtain ⟨_, -, h⟩ := Traced.bind_ok_iff.mp h
        cases h
      · rename_i hz
        obtain ⟨given, hgiven, rfl⟩ := ih h
        refine ⟨a :: given, .cons ⟨ha, by simpa using hz⟩ hgiven, ?_⟩
        rw [List.append_assoc, List.singleton_append]
  · rintro ⟨given, hgiven, rfl⟩
    have hall : (resolveOperands f tree done (ops ++ [])).outcome =
        (resolveOperands f tree (done ++ given) []).outcome := resolveOperands_append hgiven
    rw [List.append_nil] at hall
    exact hall

/-- **Where operands leave the catalogue**: at a name that does, or at a divisor that is zero in a tree that
cannot be written. -/
theorem not_endsIn_resolveOperands_iff (hG : Failure.Catalogue G) {ls : List Lexeme}
    (ho : tree.inOrder = some ls) :
    ¬ EndsIn G (resolveOperands f tree done ops).outcome ↔
      ∃ before name divisor after given, ops = before ++ (name, divisor) :: after ∧
        Resolved f before given ∧ (¬ EndsIn G (f name).outcome ∨
          divisor = true ∧ ∃ a, (f name).outcome = .ok a ∧ a.isZero ∧
            (tree.fill (done ++ given ++ [a])).1.HoldsLong) := by
  have hwritten : ∀ values, EndsIn G (tree.fill values).1.renderBare ↔
      ¬ (tree.fill values).1.HoldsLong := by
    intro values
    obtain ⟨ls', ho'⟩ := Tree.inOrder_fill values ho
    exact Tree.endsIn_renderWith_iff hG (fun _ _ => ⟨_, rfl⟩) ho'
  constructor
  · intro h
    induction ops generalizing done with
    | nil => exact absurd (endsIn_ok done) h
    | cons op ops ih =>
      obtain ⟨name, divisor⟩ := op
      rw [resolveOperands, Traced.outcome_bind, endsIn_bind_iff, not_and_or] at h
      rcases h with h | h
      · exact ⟨[], name, divisor, ops, [], rfl, .nil, Or.inl h⟩
      · push Not at h
        obtain ⟨a, ha, h⟩ := h
        split at h
        · rename_i hz
          obtain ⟨hdivisor, hz⟩ := Bool.and_eq_true_iff.mp hz
          refine ⟨[], name, divisor, ops, [], rfl, .nil, Or.inr ⟨hdivisor, a, ha, hz, ?_⟩⟩
          rw [Traced.outcome_bind, endsIn_bind_iff, not_and_or] at h
          rcases h with h | h
          · rw [List.append_nil]
            exact not_not.mp (mt (hwritten _).mpr h)
          · exact absurd (fun source _ => hG.endsIn _) h
        · rename_i hz
          obtain ⟨before, name', divisor', after, given, rfl, hgiven, hend⟩ := ih h
          have hfirst : Resolved f ((name, divisor) :: before) (a :: given) :=
            .cons ⟨ha, by simpa using hz⟩ hgiven
          refine ⟨(name, divisor) :: before, name', divisor', after, a :: given, rfl, hfirst, ?_⟩
          rwa [List.append_assoc done, List.singleton_append] at hend
  · rintro ⟨before, name, divisor, after, given, rfl, hgiven, hend⟩
    rw [resolveOperands_append hgiven, resolveOperands, Traced.outcome_bind, endsIn_bind_iff]
    rintro ⟨hname, h⟩
    rcases hend with hfail | ⟨rfl, a, ha, hz, hlong⟩
    · exact hfail hname
    · have hreported := h a ha
      rw [if_pos (by rw [hz]; rfl), Traced.outcome_bind, endsIn_bind_iff] at hreported
      exact (hwritten _).mp hreported.1 hlong

end Operands

/-! ### One text -/

/-- A text that evaluation looks at in a field. -/
structure Examined (allow : List Key) (field : Key) (s : String) : Prop where
  evaluated : field ≠ timestamp
  expression : needsEvaluation (.text s)
  allowed : allows allow field

theorem Examined.readsAs (h : Examined allow field s) (hc : isClosed s = false)
    (hp : Tree.parse (body s) = .ok tree) : ReadsAs field s tree := by
  obtain ⟨t, ht, hs⟩ := needsEvaluation_iff.mp h.expression
  obtain rfl : s = t := by simpa using ht
  exact ⟨h.evaluated, hs.resolve_right (by simp [hc]), hc, hp⟩

/-- The value of a closed text is that of its tree. -/
theorem evaluateClosed_of_parse (hp : Tree.parse (body s) = .ok tree) :
    evaluateClosed s = tree.render.bind fun source =>
      (tree.compute (fun _ => .error (.notClosed s)) source).bind fun a => a.finalize source := by
  rw [evaluateClosed, hp]
  rfl

theorem parse_numeralTooLong_iff {cs : List Char} :
    Tree.parse cs = .error .numeralTooLong ↔ tokenize cs = .error .numeralTooLong := by
  refine bind_eq_error_iff.trans (or_iff_left ?_)
  rintro ⟨all, -, h⟩
  cases ho : Tree.ofTokens all with
  | ok tree => rw [ho] at h; cases h
  | error e => rw [ho] at h; cases h

section Text

variable {resolve : String → String → Traced Number} {failure : Failure}

theorem endsIn_of_not_examined (h : ¬ Examined allow field s) :
    EndsIn G (evaluateWith resolve context allow field (.text s)).outcome := by
  by_cases hf : field = timestamp
  · rw [hf, evaluateWith_timestamp]
    exact endsIn_ok _
  · have hinert : (needsEvaluation (.text s) && allows allow field) = false := by
      by_contra hb
      obtain ⟨hn, ha⟩ := Bool.and_eq_true_iff.mp (Bool.not_eq_false _ ▸ hb)
      exact h ⟨hf, hn, ha⟩
    rw [evaluateWith_of_inert hf hinert]
    exact endsIn_ok _

/-- A text that cannot be read is an error of the catalogue, unless a numeral has too many digits. -/
theorem endsIn_evaluateWith_of_unread (hG : Failure.Catalogue G) (h : Examined allow field s)
    (hp : Tree.parse (body s) = .error failure) :
    EndsIn G (evaluateWith resolve context allow field (.text s)).outcome ↔
      failure ≠ .numeralTooLong := by
  by_cases hc : isClosed s
  · obtain rfl := parse_error_of_closed hc hp
    have hclosed : evaluateClosed s = .error .numeralTooLong := by
      rw [evaluateClosed, hp]
      rfl
    rw [evaluateWith_of_closed h.evaluated h.allowed hc, hclosed]
    exact iff_of_false (by simp [hG.not_long]) (by simp)
  · have hout : (evaluateWith resolve context allow field (.text s)).outcome =
        (parseFor s field).bind fun tree => ((do
          let values ← resolveOperands (resolve s) tree [] tree.operands
          Value.ofNumber? <$> finish s field tree values) : Traced Value).outcome := by
      rw [evaluateWith, if_neg h.evaluated]
      simp only [h.expression, h.allowed, hc]
      exact Traced.outcome_bind _ _
    rw [hout, parseFor, hp]
    rcases Tree.parse_error hp with rfl | ⟨ch, p, rfl⟩ | ⟨e, rfl⟩
    · exact iff_of_false (by simp [Except.bind, hG.not_long]) (by simp)
    · exact iff_of_true (hG.endsIn _) (by simp)
    · exact iff_of_true (hG.endsIn _) (by simp)

/-- A closed text leaves the catalogue if its tree is too large. -/
theorem endsIn_evaluateClosed_iff (hG : Failure.Catalogue G) (hc : isClosed s)
    (hp : Tree.parse (body s) = .ok tree) : EndsIn G (evaluateClosed s) ↔ ¬ tree.TooLarge := by
  obtain ⟨ls, ho⟩ := inOrder_of_parse hp
  rw [evaluateClosed_of_parse hp]
  exact Tree.endsIn_value_iff hG (fun _ _ => ⟨_, rfl⟩) (names_of_closed hc hp) ho

/-- A tree leaves the catalogue if it is too large with the numbers of its operands. -/
theorem endsIn_finish_iff (hG : Failure.Catalogue G) {given : List Number} {ls : List Lexeme}
    (ho : tree.inOrder = some ls) (hlength : tree.names.length ≤ given.length) :
    EndsIn G (finish s field tree given).outcome ↔ ¬ (tree.fill given).1.TooLarge := by
  obtain ⟨ls', ho'⟩ := Tree.inOrder_fill given ho
  rw [finish_outcome]
  exact Tree.endsIn_value_iff hG (fun _ _ => ⟨_, rfl⟩) (Tree.names_fill_eq_nil hlength) ho'

theorem length_operands (tree : Tree) : tree.operands.length = tree.names.length := by
  have hnames := congrArg List.length (map_fst_operandsAfter false tree)
  rw [List.length_map, List.length_map] at hnames
  exact hnames

/-- **A text that is read** leaves the catalogue where its operands do, or if what they make is too large. -/
theorem endsIn_evaluateWith_iff (hG : Failure.Catalogue G) (h : Examined allow field s)
    (hp : Tree.parse (body s) = .ok tree) :
    EndsIn G (evaluateWith resolve context allow field (.text s)).outcome ↔
      EndsIn G (resolveOperands (resolve s) tree [] tree.operands).outcome ∧
        ∀ given, Resolved (resolve s) tree.operands given → ¬ (tree.fill given).1.TooLarge := by
  by_cases hc : isClosed s
  · have hops : tree.operands = [] := by
      rw [← List.length_eq_zero_iff, length_operands, names_of_closed hc hp, List.length_nil]
    have hmap : Value.ofNumber? <$> evaluateClosed s = (evaluateClosed s).map Value.ofNumber? := rfl
    rw [evaluateWith_of_closed h.evaluated h.allowed hc, Traced.outcome_lift, hops, hmap, endsIn_map_iff,
      endsIn_evaluateClosed_iff hG hc hp]
    constructor
    · intro hsmall
      refine ⟨endsIn_ok _, fun given hgiven => ?_⟩
      cases hgiven
      rwa [Tree.fill_nil]
    · rintro ⟨-, hall⟩
      have hsmall := hall [] .nil
      rwa [Tree.fill_nil] at hsmall
  · have hread : ReadsAs field s tree := h.readsAs (by simpa using hc) hp
    obtain ⟨ls, ho⟩ := inOrder_of_parse hp
    have hvalue : ∀ given, Resolved (resolve s) tree.operands given →
        (EndsIn G (Value.ofNumber? <$> finish s field tree given).outcome ↔
          ¬ (tree.fill given).1.TooLarge) := by
      intro given hgiven
      have hlength : tree.names.length = given.length := by
        rw [← length_operands, hgiven.length_eq]
      rw [Traced.outcome_map, endsIn_map_iff, endsIn_finish_iff hG ho hlength.le]
    rw [evaluateWith_of_tree hread h.allowed, Traced.outcome_bind, endsIn_bind_iff]
    refine and_congr_right fun _ => ⟨fun hall given hgiven => ?_, fun hall values hvalues => ?_⟩
    · exact (hvalue given hgiven).mp (hall given (resolveOperands_ok_iff.mpr ⟨given, hgiven, rfl⟩))
    · obtain ⟨_, hgiven, rfl⟩ := resolveOperands_ok_iff.mp hvalues
      exact (hvalue _ hgiven).mpr (hall _ hgiven)

end Text

/-! ### Along the chain -/

/-- Where evaluation comes upon numbers that are too large: in the text `s` of a field, or in the text of a
name in it that evaluation comes to. -/
inductive Exceeds (context : Record) : List Key → List Key → Key → String → Prop
  /-- A numeral has too many digits. -/
  | numeral {allow chain : List Key} {field : Key} {s : String} : Examined allow field s →
      tokenize (body s) = .error .numeralTooLong → Exceeds context allow chain field s
  /-- The operands in front of a name are resolved, and its own text exceeds. -/
  | name {allow chain : List Key} {field : Key} {s name t : String} {tree : Tree} {divisor : Bool}
      {before after : List (String × Bool)} {given : List Number} : Examined allow field s →
      Tree.parse (body s) = .ok tree → tree.operands = before ++ (name, divisor) :: after →
      Resolved (resolve context allow chain s) before given →
      context.get? (.text name) = some (.text t) → chain.contains (.text name) = false →
      Exceeds context (allowAlso allow name) (chain ++ [.text name]) (.text name) t →
      Exceeds context allow chain field s
  /-- A divisor is zero, and a number of the tree is too long to be shown. -/
  | divisor {allow chain : List Key} {field : Key} {s name : String} {tree : Tree}
      {before after : List (String × Bool)} {given : List Number} {a : Number} : Examined allow field s →
      Tree.parse (body s) = .ok tree → tree.operands = before ++ (name, true) :: after →
      Resolved (resolve context allow chain s) before given →
      (resolve context allow chain s name).outcome = .ok a → a.isZero →
      (tree.fill (given ++ [a])).1.HoldsLong → Exceeds context allow chain field s
  /-- All operands are resolved, and the tree of their numbers is too large. -/
  | value {allow chain : List Key} {field : Key} {s : String} {tree : Tree} {given : List Number} :
      Examined allow field s →
      Tree.parse (body s) = .ok tree →
      Resolved (resolve context allow chain s) tree.operands given →
      (tree.fill given).1.TooLarge → Exceeds context allow chain field s

theorem Exceeds.examined (h : Exceeds context allow chain field s) : Examined allow field s := by
  cases h <;> assumption

/-- The context holds values without parts, and no decimals. -/
def BasicContext (context : Record) : Prop := ∀ k v, context.get? k = some v → v.isBasic

theorem basicContext_of_entries (h : ∀ e ∈ context.entries, e.2.isBasic) : BasicContext context :=
  fun k v hv => h (k, v) (Entries.mem_of_get? hv)

theorem isBasic_of_evaluateWith {resolve : String → String → Traced Number} {result : Value}
    (hb : BasicContext context)
    (h : (evaluateWith resolve context allow field (.text s)).outcome = .ok result) : result.isBasic := by
  by_cases hf : field = timestamp
  · rw [hf, evaluateWith_timestamp] at h
    obtain rfl := Except.ok.inj h
    cases ht : context.get? timestamp with
    | none => rfl
    | some v => exact hb _ v ht
  · rcases evaluateWith_ok hf h with rfl | ⟨a, rfl⟩
    · rfl
    · exact Value.isBasic_ofNumber? a

/-- **A name leaves the catalogue** iff its own text does where evaluation comes to it. -/
theorem endsIn_resolve_iff (hG : Failure.Catalogue G) (hb : BasicContext context) :
    EndsIn G (resolve context allow chain expression name).outcome ↔
      ∀ t, context.get? (.text name) = some (.text t) → needsEvaluation (.text t) →
        chain.contains (.text name) = false →
        EndsIn G (evaluateWith (resolve context (allowAlso allow name) (chain ++ [.text name])) context
          (allowAlso allow name) (.text name) (.text t)).outcome := by
  cases hv : context.get? (.text name) with
  | none =>
    rw [resolve_of_none hv]
    exact iff_of_true (hG.endsIn _) (by simp)
  | some value =>
    by_cases hn : needsEvaluation value
    · obtain ⟨t, rfl, -⟩ := needsEvaluation_iff.mp hn
      cases hc : chain.contains (.text name) with
      | true =>
        rw [resolve_of_chain hv hn hc]
        exact iff_of_true (hG.endsIn _) (by simp)
      | false =>
        rw [resolve_of_expression hv hn hc, Traced.outcome_bind, endsIn_bind_iff]
        have hnumber : ∀ result, (evaluateWith
            (resolve context (allowAlso allow name) (chain ++ [.text name])) context
            (allowAlso allow name) (.text name) (.text t)).outcome = .ok result →
            EndsIn G (finishedNumber name result) :=
          fun result hr => endsIn_finishedNumber hG (isBasic_of_evaluateWith hb hr)
        constructor
        · rintro ⟨h, -⟩ t' ht - -
          obtain rfl : t = t' := by simpa using ht
          exact h
        · exact fun h => ⟨h t rfl hn rfl, hnumber⟩
    · rw [resolve_of_plain hv (by simpa using hn)]
      refine iff_of_true (endsIn_finishedNumber hG (hb _ value hv)) fun t ht hneeds => ?_
      obtain rfl := Option.some.inj ht
      exact absurd hneeds hn

/-- What exceeds leaves the catalogue. -/
theorem Exceeds.not_endsIn (hG : Failure.Catalogue G) (hb : BasicContext context)
    (h : Exceeds context allow chain field s) :
    ¬ EndsIn G (evaluateWith (resolve context allow chain) context allow field (.text s)).outcome := by
  induction h with
  | numeral hex hlong =>
    have hp := parse_numeralTooLong_iff.mpr hlong
    exact fun h => (endsIn_evaluateWith_of_unread hG hex hp).mp h rfl
  | @name allow chain _ s name t _ divisor before after given hex hp hops hgiven hget hchain hnext ih =>
    intro h
    obtain ⟨ls, ho⟩ := inOrder_of_parse hp
    have hname : ¬ EndsIn G (resolve context allow chain s name).outcome := fun hname =>
      ih ((endsIn_resolve_iff hG hb).mp hname t hget hnext.examined.expression hchain)
    exact (not_endsIn_resolveOperands_iff hG ho).mpr
      ⟨before, name, divisor, after, given, hops, hgiven, Or.inl hname⟩
      ((endsIn_evaluateWith_iff hG hex hp).mp h).1
  | @divisor _ _ _ _ name _ before after given a hex hp hops hgiven ha hz hlong =>
    intro h
    obtain ⟨ls, ho⟩ := inOrder_of_parse hp
    exact (not_endsIn_resolveOperands_iff hG ho).mpr
      ⟨before, name, true, after, given, hops, hgiven, Or.inr ⟨rfl, a, ha, hz, hlong⟩⟩
      ((endsIn_evaluateWith_iff hG hex hp).mp h).1
  | value hex hp hgiven hlarge =>
    exact fun h => ((endsIn_evaluateWith_iff hG hex hp).mp h).2 _ hgiven hlarge

/-- One text exceeds if it leaves the catalogue, given that its names do so only where their texts exceed. -/
theorem exceeds_of_not_endsIn (hG : Failure.Catalogue G)
    (hnames : ∀ name, ¬ EndsIn G (resolve context allow chain s name).outcome →
      ∃ t, context.get? (.text name) = some (.text t) ∧ chain.contains (.text name) = false ∧
        Exceeds context (allowAlso allow name) (chain ++ [.text name]) (.text name) t)
    (h : ¬ EndsIn G (evaluateWith (resolve context allow chain) context allow field (.text s)).outcome) :
    Exceeds context allow chain field s := by
  have hex : Examined allow field s := by
    by_contra hex
    exact h (endsIn_of_not_examined hex)
  cases hp : Tree.parse (body s) with
  | error failure =>
    have hlong := not_not.mp (mt (endsIn_evaluateWith_of_unread hG hex hp).mpr h)
    rw [hlong] at hp
    exact .numeral hex (parse_numeralTooLong_iff.mp hp)
  | ok tree =>
    obtain ⟨ls, ho⟩ := inOrder_of_parse hp
    rw [endsIn_evaluateWith_iff hG hex hp, not_and_or] at h
    rcases h with h | h
    · obtain ⟨before, name, divisor, after, given, hops, hgiven, hend⟩ :=
        (not_endsIn_resolveOperands_iff hG ho).mp h
      rcases hend with hname | ⟨rfl, a, ha, hz, hlong⟩
      · obtain ⟨t, hget, hchain, hnext⟩ := hnames name hname
        exact .name hex hp hops hgiven hget hchain hnext
      · exact .divisor hex hp hops hgiven ha hz hlong
    · push Not at h
      obtain ⟨given, hgiven, hlarge⟩ := h
      exact .value hex hp hgiven hlarge

theorem exists_exceeds_of_resolve (hG : Failure.Catalogue G) (hb : BasicContext context)
    (chain : List Key) (name : String) :
    ∀ allow expression, ¬ EndsIn G (resolve context allow chain expression name).outcome →
      ∃ t, context.get? (.text name) = some (.text t) ∧ chain.contains (.text name) = false ∧
        Exceeds context (allowAlso allow name) (chain ++ [.text name]) (.text name) t := by
  induction chain, name using chain_induction context with
  | step chain name ih =>
    intro allow expression h
    rw [endsIn_resolve_iff hG hb] at h
    push Not at h
    obtain ⟨t, hget, -, hchain, h⟩ := h
    exact ⟨t, hget, hchain, exceeds_of_not_endsIn hG
      (fun next hnext => ih (.text t) hget hchain next _ t hnext) h⟩

/-- **Evaluation leaves the catalogue iff it exceeds.** -/
theorem endsIn_evaluate_iff (hG : Failure.Catalogue G) (hb : BasicContext context) :
    EndsIn G (evaluate context allow field (.text s)).outcome ↔
      ¬ Exceeds context allow [field] field s := by
  constructor
  · exact fun h hex => hex.not_endsIn hG hb h
  · intro h
    by_contra hcat
    exact h (exceeds_of_not_endsIn hG
      (fun name => exists_exceeds_of_resolve hG hb [field] name allow s) hcat)

end Expression

end RowPipeline
