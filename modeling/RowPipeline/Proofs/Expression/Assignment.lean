import RowPipeline.Proofs.Expression.Catalogue

/-!
# The value of a text by the numbers of its names

A text that is read has a value iff each name in it has a number and the tree with these numbers in the place
of its names yields that value (`evaluateWith_ok_iff`). Names are resolved once for every place where they
stand, but one name has the same number everywhere in a text, so an assignment of numbers to names says it
all (`resolved_iff`).

That resolving stops at a divisor which is zero needs no condition of its own: working out the tree stops
there too (`Tree.divisors_of_comesTo`).
-/

namespace RowPipeline

variable {number : String → Number}

/-- What becomes of a computed number does not depend on the expression that is reported. -/
theorem Number.finalize_source {a : Number} {source : String} {r : Option Number} (source' : String)
    (h : a.finalize source = .ok r) : a.finalize source' = .ok r := by
  unfold finalize at h ⊢
  split at h
  · exact h
  · cases h
  · exact h

theorem Operator.isZero_of_div {a b c : Number} {source : String}
    (h : Operator.apply .div a b source = .ok c) : b.isZero = false := by
  rw [apply] at h
  split at h
  · cases h
  · rename_i hb
    simpa using hb

namespace Tree

variable {t left right : Tree} {op : Operator} {ls : List Lexeme} {a : Number} {r : Option Number}

/-! ### Trees under an assignment -/

/-- The tree with numbers in the place of its names. -/
def assign (number : String → Number) : Tree → Tree
  | name text _ => literal (number text)
  | binary op left right => binary op (left.assign number) (right.assign number)
  | t => t

theorem fill_map_names (number : String → Number) (t : Tree) (rest : List Number) :
    t.fill (t.names.map (fun n => number n.1) ++ rest) = (t.assign number, rest) := by
  induction t generalizing rest with
  | literal a => rfl
  | name text quoted => rfl
  | binary op left right ihl ihr =>
    simp only [fill, names, List.map_append, List.append_assoc, ihl, ihr, assign]
  | hole => rfl

/-- Filling in the numbers of the operands is assigning them. -/
theorem fill_map_operands (number : String → Number) (t : Tree) :
    (t.fill (t.operands.map fun op => number op.1)).1 = t.assign number := by
  have hoperands : (t.operands.map fun op => number op.1) = t.names.map fun n => number n.1 := by
    have hfst := congrArg (List.map number) (Expression.map_fst_operandsAfter false t)
    rwa [List.map_map, List.map_map] at hfst
  have hfill := fill_map_names number t []
  rw [List.append_nil] at hfill
  rw [hoperands, hfill]

theorem assign_of_names_nil (number : String → Number) (h : t.names = []) : t.assign number = t := by
  have hfill := fill_map_names number t []
  rw [h, List.map_nil, List.append_nil, fill_nil] at hfill
  exact (congrArg Prod.fst hfill).symm

theorem names_assign (number : String → Number) (t : Tree) : (t.assign number).names = [] := by
  rw [← fill_map_operands]
  refine names_fill_eq_nil ?_
  rw [List.length_map, Expression.length_operands]

theorem inOrder_assign (number : String → Number) (ho : t.inOrder = some ls) :
    ∃ ls', (t.assign number).inOrder = some ls' := by
  rw [← fill_map_operands]
  exact inOrder_fill _ ho

/-- A number is too long under an assignment if it was before, or if a name has one that is. -/
theorem holdsLong_assign (number : String → Number) (t : Tree) : (t.assign number).HoldsLong ↔
    t.HoldsLong ∨ ∃ name, Expression.Mentions t name ∧ (number name).TooLong := by
  induction t with
  | literal a => simp [assign, Expression.Mentions, names]
  | name text quoted => simp [assign, HoldsLong, Expression.Mentions, names]
  | binary op left right ihl ihr =>
    have hmentions : ∀ name, Expression.Mentions (binary op left right) name ↔
        Expression.Mentions left name ∨ Expression.Mentions right name := by
      intro name
      simp [Expression.Mentions, names, or_and_right, exists_or]
    simp only [assign, HoldsLong, ihl, ihr, hmentions, or_and_right, exists_or]
    exact or_or_or_comm
  | hole => simp [assign, Expression.Mentions, names]

/-- Assigning numbers to names is working out the tree with these numbers. -/
theorem compute_assign (value : String → Except Failure Number) (source : String) (t : Tree) :
    (t.assign number).compute value source = t.compute (fun name => .ok (number name)) source := by
  induction t with
  | literal a => rfl
  | name text quoted => rfl
  | binary op left right ihl ihr => simp only [assign, compute, ihl, ihr]
  | hole => rfl

/-! ### The number of a tree -/

theorem comesTo_binary : (binary op left right).ComesTo a ↔
    ∃ b c, left.ComesTo b ∧ right.ComesTo c ∧ op.apply b c "" = .ok a := by
  constructor
  · intro h
    obtain ⟨b, hb, h⟩ := bind_eq_ok_iff.mp h
    obtain ⟨c, hc, h⟩ := bind_eq_ok_iff.mp h
    exact ⟨b, c, hb, hc, h⟩
  · rintro ⟨b, c, hb, hc, h⟩
    exact bind_eq_ok_iff.mpr ⟨b, hb, bind_eq_ok_iff.mpr ⟨c, hc, h⟩⟩

/-- Where a tree comes to a number, no divisor in it is zero. -/
theorem divisors_of_comesTo {divisor : Bool} (h : (t.assign number).ComesTo a)
    (hd : divisor = true → a.isZero = false) :
    ∀ op ∈ t.operandsAfter divisor, (op.2 && (number op.1).isZero) = false := by
  induction t generalizing divisor a with
  | literal b => simp [operandsAfter]
  | name text quoted =>
    intro op hop
    obtain rfl := List.mem_singleton.mp hop
    obtain rfl : number text = a := Except.ok.inj h
    cases divisor with
    | false => rfl
    | true => exact hd rfl
  | binary op left right ihl ihr =>
    obtain ⟨b, c, hb, hc, happly⟩ := comesTo_binary.mp h
    intro operand hoperand
    rcases List.mem_append.mp hoperand with hleft | hright
    · exact ihl hb (by simp) operand hleft
    · refine ihr hc (fun hdiv => ?_) operand hright
      obtain rfl : op = .div := of_decide_eq_true hdiv
      exact Operator.isZero_of_div happly
  | hole => simp [operandsAfter]

/-- A tree without names has a value: it can be written, and comes to a number that is finite or undefined. -/
def Yields (t : Tree) (r : Option Number) : Prop :=
  ¬ t.HoldsLong ∧ ∃ a, t.ComesTo a ∧ a.finalize "" = .ok r

/-- A tree is written, worked out and settled iff it yields the result. -/
theorem value_ok_iff {write : String → Bool → Except Failure String}
    {value : String → Except Failure Number} (hw : ∀ text quoted, ∃ s, write text quoted = .ok s)
    (hn : t.names = []) (ho : t.inOrder = some ls) :
    ((t.renderWith write).bind fun source =>
      (t.compute value source).bind fun a => a.finalize source) = .ok r ↔ t.Yields r := by
  constructor
  · intro h
    obtain ⟨source, hs, h⟩ := bind_eq_ok_iff.mp h
    obtain ⟨a, ha, h⟩ := bind_eq_ok_iff.mp h
    exact ⟨(renderWith_ok_iff hw ho).mp ⟨source, hs⟩, a, compute_ok hn ha, a.finalize_source "" h⟩
  · rintro ⟨hshort, a, ha, hr⟩
    obtain ⟨source, hs⟩ := (renderWith_ok_iff hw ho).mpr hshort
    have hcompute : t.compute value source = .ok a := compute_ok hn ha
    exact bind_eq_ok_iff.mpr ⟨source, hs, bind_eq_ok_iff.mpr ⟨a, hcompute, a.finalize_source source hr⟩⟩

end Tree

namespace Expression

variable {context : Record} {allow : List Key} {field : Key} {s name : String} {v : Value} {tree : Tree}
  {r : Option Number}

/-! ### The numbers of the operands -/

/-- Operands that are resolved have the numbers of an assignment. -/
theorem resolved_iff {f : String → Traced Number} {ops : List (String × Bool)} {given : List Number} :
    Resolved f ops given ↔ ∃ number : String → Number, (given = ops.map fun op => number op.1) ∧
      ∀ op ∈ ops, (f op.1).outcome = .ok (number op.1) ∧ (op.2 && (number op.1).isZero) = false := by
  constructor
  · intro h
    obtain ⟨number, hnumber⟩ : ∃ number : String → Number, ∀ name a, (f name).outcome = .ok a →
        number name = a := by
      refine ⟨fun name => (f name).outcome.toOption.getD (.int 0), fun name a ha => ?_⟩
      simp only [ha]
      rfl
    refine ⟨number, ?_⟩
    induction h with
    | nil => exact ⟨rfl, by simp⟩
    | @cons op a ops given ha _ ih =>
      obtain ⟨rfl, hops⟩ := ih
      constructor
      · rw [List.map_cons, hnumber op.1 a ha.1]
      · intro op' hop'
        rcases List.mem_cons.mp hop' with rfl | hop'
        · rw [hnumber op'.1 a ha.1]
          exact ha
        · exact hops op' hop'
  · rintro ⟨number, rfl, h⟩
    exact List.forall₂_map_right_iff.mpr (List.forall₂_same.mpr h)

/-! ### The value of a text -/

/-- A text has a value only if it is read. -/
theorem parsed_of_ok {resolve : String → String → Traced Number} (h : Examined allow field s)
    (hv : (evaluateWith resolve context allow field (.text s)).outcome = .ok v) :
    ∃ tree, Tree.parse (body s) = .ok tree := by
  by_cases hc : isClosed s
  · rw [evaluateWith_of_closed h.evaluated h.allowed hc] at hv
    obtain ⟨r, hr, -⟩ := map_eq_ok_iff.mp hv
    obtain ⟨tree, hp, -⟩ := bind_eq_ok_iff.mp hr
    exact ⟨tree, hp⟩
  · rw [evaluateWith, if_neg h.evaluated] at hv
    simp only [h.expression, h.allowed, hc] at hv
    obtain ⟨tree, hp, -⟩ := Traced.bind_ok_iff.mp hv
    exact ⟨tree, parseFor_ok hp⟩

theorem evaluateClosed_ok_iff (hc : isClosed s) (hp : Tree.parse (body s) = .ok tree) :
    evaluateClosed s = .ok r ↔ tree.Yields r := by
  obtain ⟨ls, ho⟩ := inOrder_of_parse hp
  rw [evaluateClosed_of_parse hp]
  exact Tree.value_ok_iff (fun _ _ => ⟨_, rfl⟩) (names_of_closed hc hp) ho

/-- The operands are filled in, and the tree has a value, iff the tree yields it under the assignment. -/
theorem finish_ok_iff {ls : List Lexeme} (ho : tree.inOrder = some ls) :
    (finish s field tree (tree.operands.map fun op => number op.1)).outcome = .ok r ↔
      (tree.assign number).Yields r := by
  obtain ⟨ls', ho'⟩ := Tree.inOrder_assign number ho
  rw [finish_outcome, Tree.fill_map_operands]
  exact Tree.value_ok_iff (fun _ _ => ⟨_, rfl⟩) (Tree.names_assign number tree) ho'

/-- **A text that is read has a value** iff its names have numbers with which its tree yields that value. -/
theorem evaluateWith_ok_iff {resolve : String → String → Traced Number} (h : Examined allow field s)
    (hp : Tree.parse (body s) = .ok tree) :
    (evaluateWith resolve context allow field (.text s)).outcome = .ok v ↔
      ∃ number : String → Number,
        (∀ name, Mentions tree name → (resolve s name).outcome = .ok (number name)) ∧
        ∃ r, (tree.assign number).Yields r ∧ v = .ofNumber? r := by
  by_cases hc : isClosed s
  · -- a closed text mentions no name, so any assignment will do
    have hn := names_of_closed hc hp
    have hmap : Value.ofNumber? <$> evaluateClosed s = (evaluateClosed s).map Value.ofNumber? := rfl
    rw [evaluateWith_of_closed h.evaluated h.allowed hc, Traced.outcome_lift, hmap, map_eq_ok_iff]
    constructor
    · rintro ⟨r, hr, rfl⟩
      refine ⟨fun _ => .int 0, ?_, r, ?_, rfl⟩
      · intro name hmention
        rw [Mentions, hn] at hmention
        cases hmention
      · rw [Tree.assign_of_names_nil _ hn]
        exact (evaluateClosed_ok_iff hc hp).mp hr
    · rintro ⟨number, -, r, hr, rfl⟩
      rw [Tree.assign_of_names_nil _ hn] at hr
      exact ⟨r, (evaluateClosed_ok_iff hc hp).mpr hr, rfl⟩
  · have hread := h.readsAs (by simpa using hc) hp
    obtain ⟨ls, ho⟩ := inOrder_of_parse hp
    rw [evaluateWith_of_tree hread h.allowed, Traced.bind_ok_iff]
    constructor
    · rintro ⟨values, hvalues, hr⟩
      obtain ⟨_, hgiven, rfl⟩ := resolveOperands_ok_iff.mp hvalues
      obtain ⟨number, rfl, hnumber⟩ := resolved_iff.mp hgiven
      rw [Traced.outcome_map, map_eq_ok_iff] at hr
      obtain ⟨r, hr, rfl⟩ := hr
      refine ⟨number, ?_, r, (finish_ok_iff ho).mp hr, rfl⟩
      intro name hmention
      obtain ⟨op, hop, rfl⟩ := exists_operand hmention
      exact (hnumber op hop).1
    · rintro ⟨number, hnumber, r, hr, rfl⟩
      have hgiven : Resolved (resolve s) tree.operands (tree.operands.map fun op => number op.1) := by
        refine resolved_iff.mpr ⟨number, rfl, fun op hop => ⟨?_, ?_⟩⟩
        · exact hnumber op.1 (mentions_of_operand hop)
        · obtain ⟨-, a, ha, -⟩ := hr
          exact Tree.divisors_of_comesTo ha (by simp) op hop
      refine ⟨_, resolveOperands_ok_iff.mpr ⟨_, hgiven, rfl⟩, ?_⟩
      rw [Traced.outcome_map, map_eq_ok_iff]
      exact ⟨r, (finish_ok_iff ho).mpr hr, rfl⟩

end Expression

end RowPipeline
