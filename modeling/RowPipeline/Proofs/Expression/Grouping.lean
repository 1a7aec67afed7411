import RowPipeline.Expression.Parser
import RowPipeline.Proofs.Expression.Tokens

/-!
# The tree of an expression

An expression is read iff operands and operators alternate in it, an operand first and last
(`alternates`). Its tree, read in order, gives the tokens back (`Tree.inOrder`), and in it products
stand below sums and both group from the left (`Tree.grouped`); no other tree does both. If
alternation breaks, the error names the first token that is out of turn (`Lexeme.inTurn`).

`readOn_sound` and `readOn_error` follow the reader; `readFrom_of_product` and `readFrom_of_grouped`
say that the reader finds every grouped tree, so there is at most one for a token list.
-/

namespace RowPipeline

/-! ### Token lists in turn -/

namespace Lexeme

/-- The sign that an operator is written with; an operator without meaning has none. -/
def ofOperator? : Operator → Option Lexeme
  | .add => some plus
  | .sub => some minus
  | .mul => some times
  | .div => some divide
  | .other _ => none

/-- Whether a lexeme may stand at a place: operands at even places, operators or the end mark at odd
ones. -/
def inTurn (place : Nat) (l : Lexeme) : Bool :=
  if place % 2 = 0 then l.isOperand else l.isOperator || l == finish

theorem inTurn_even {place : Nat} {l : Lexeme} (h : place % 2 = 0) : l.inTurn place = l.isOperand :=
  if_pos h

theorem inTurn_odd {place : Nat} {l : Lexeme} (h : place % 2 = 1) (ho : l.isOperator) :
    l.inTurn place := by
  rw [inTurn, if_neg (by omega), ho, Bool.true_or]

theorem inTurn_odd_eq_false {place : Nat} {l : Lexeme} (h : place % 2 = 1)
    (ho : l.isOperator = false) (hf : l ≠ finish) : l.inTurn place = false := by
  rw [inTurn, if_neg (by omega), ho, Bool.false_or]
  exact beq_false_of_ne hf

/-- Whether a list is an operand, followed by operators and operands in turn. -/
def alternates : List Lexeme → Bool
  | [] => false
  | [operand] => operand.isOperand
  | operand :: operator :: rest => operand.isOperand && operator.isOperator && alternates rest

end Lexeme

namespace Token

/-- A token is the first one out of turn in a list that starts at some place. -/
def FirstOutOfTurn (place : Nat) (all : List Token) (t : Token) : Prop :=
  ∃ i, all[i]? = some t ∧ t.lexeme.inTurn (place + i) = false ∧
    ∀ j < i, ∀ u, all[j]? = some u → u.lexeme.inTurn (place + j)

theorem FirstOutOfTurn.here {place : Nat} {t : Token} {rest : List Token}
    (h : t.lexeme.inTurn place = false) : FirstOutOfTurn place (t :: rest) t :=
  ⟨0, rfl, h, by simp⟩

theorem FirstOutOfTurn.later {place : Nat} {t u : Token} {rest : List Token}
    (ht : t.lexeme.inTurn place) (h : FirstOutOfTurn (place + 1) rest u) :
    FirstOutOfTurn place (t :: rest) u := by
  obtain ⟨i, hi, hu, hbefore⟩ := h
  refine ⟨i + 1, hi, by rw [← hu, Nat.add_assoc, Nat.add_comm 1], fun j hj v hv => ?_⟩
  cases j with
  | zero => obtain rfl : t = v := by simpa using hv
            exact ht
  | succ j =>
    rw [Nat.add_comm j, ← Nat.add_assoc]
    exact hbefore j (by omega) v hv

end Token

namespace Tree

/-! ### Trees in order -/

/-- The tokens of a tree, read in order; a tree with a hole or an operator without sign has none. -/
def inOrder : Tree → Option (List Lexeme)
  | literal a => some [.number a]
  | name text quoted => some [if quoted then .quoted text else .name text]
  | binary op left right => do
    return (← left.inOrder) ++ (← Lexeme.ofOperator? op) :: (← right.inOrder)
  | hole => none

/-- Whether a tree is an operand. -/
def isLeaf : Tree → Bool
  | literal _ => true
  | name _ _ => true
  | _ => false

/-- Whether the topmost operator is a multiplication or a division. -/
def isProduct : Tree → Bool
  | binary .mul _ _ => true
  | binary .div _ _ => true
  | _ => false

/-- Whether an addition or a subtraction occurs in a tree. -/
def hasSum : Tree → Bool
  | binary .add _ _ => true
  | binary .sub _ _ => true
  | binary _ left right => left.hasSum || right.hasSum
  | _ => false

/-- Whether every product has an operand on its right and an operand or a product on its left, and
every sum has no sum on its right. -/
def grouped : Tree → Bool
  | binary .add left right => !right.hasSum && left.grouped && right.grouped
  | binary .sub left right => !right.hasSum && left.grouped && right.grouped
  | binary _ left right =>
    right.isLeaf && (left.isLeaf || left.isProduct) && left.grouped && right.grouped
  | _ => true

/-! ### Operands -/

theorem ofOperand_ok {t : Token} {leaf : Tree} (h : ofOperand t = .ok leaf) :
    leaf.isLeaf ∧ leaf.grouped ∧ leaf.inOrder = some [t.lexeme] ∧ t.lexeme.isOperand := by
  unfold ofOperand at h
  split at h
  · rename_i a hl
    rw [Except.ok.injEq] at h
    subst h; rw [hl]; exact ⟨rfl, rfl, rfl, rfl⟩
  · rename_i text hl
    rw [Except.ok.injEq] at h
    subst h; rw [hl]; exact ⟨rfl, rfl, rfl, rfl⟩
  · rename_i text hl
    rw [Except.ok.injEq] at h
    subst h; rw [hl]; exact ⟨rfl, rfl, rfl, rfl⟩
  · simp at h
  · simp at h

theorem ofOperand_error {t : Token} {e : ParseError} (h : ofOperand t = .error e) :
    e.token = t ∧ t.lexeme.isOperand = false := by
  unfold ofOperand at h
  split at h
  · simp at h
  · simp at h
  · simp at h
  · rename_i hl
    rw [Except.error.injEq] at h
    subst h; rw [hl]; exact ⟨rfl, rfl⟩
  · rename_i h1 h2 h3 h4
    rw [Except.error.injEq] at h
    subst h
    refine ⟨rfl, ?_⟩
    cases hl : t.lexeme <;> simp_all [Lexeme.isOperand]

/-- The operand token of a leaf is read as that leaf. -/
theorem ofOperand_of_leaf {t : Token} {leaf : Tree} (hl : leaf.isLeaf)
    (hi : leaf.inOrder = some [t.lexeme]) : ofOperand t = .ok leaf := by
  cases leaf with
  | literal a =>
    simp only [inOrder, Option.some.injEq, List.cons.injEq, and_true] at hi
    simp [ofOperand, ← hi]
  | name text quoted =>
    simp only [inOrder, Option.some.injEq, List.cons.injEq, and_true] at hi
    cases quoted <;> simp [ofOperand, ← hi]
  | binary op left right => simp [isLeaf] at hl
  | hole => simp [isLeaf] at hl

/-! ### Grouped trees -/

/-- A grouped tree with an operand or a product on top holds no sum. -/
theorem hasSum_eq_false : ∀ {t : Tree}, t.grouped → t.isLeaf ∨ t.isProduct → t.hasSum = false
  | literal _, _, _ => rfl
  | name _ _, _, _ => rfl
  | binary op left right, hg, hp => by
    have key : right.isLeaf → (left.isLeaf ∨ left.isProduct) → left.grouped → right.grouped →
        (left.hasSum || right.hasSum) = false := by
      intro hr hl hgl hgr
      rw [hasSum_eq_false hgl hl, hasSum_eq_false hgr (Or.inl hr)]
      rfl
    cases op <;> simp_all [grouped, isLeaf, isProduct, hasSum]
  | hole, _, hp => by simp [isLeaf, isProduct] at hp

theorem grouped_product {op : Operator} {left right : Tree} (hop : op = .mul ∨ op = .div)
    (hl : left.grouped) (hs : left.isLeaf ∨ left.isProduct) (hr : right.grouped)
    (hrl : right.isLeaf) :
    (binary op left right).grouped ∧ (binary op left right).isProduct := by
  rcases hop with rfl | rfl
  · exact ⟨by simp [grouped, hl, hs, hr, hrl], rfl⟩
  · exact ⟨by simp [grouped, hl, hs, hr, hrl], rfl⟩

theorem grouped_of_binary {op : Operator} {left right : Tree} (h : (binary op left right).grouped) :
    left.grouped ∧ right.grouped := by
  cases op <;> simp_all [grouped]

theorem hasSum_right {op : Operator} {left right : Tree} (hop : op = .add ∨ op = .sub)
    (h : (binary op left right).grouped) : right.hasSum = false := by
  rcases hop with rfl | rfl <;> simp_all [grouped]

theorem isLeaf_right {op : Operator} {left right : Tree} (hop : op = .mul ∨ op = .div)
    (h : (binary op left right).grouped) : right.isLeaf := by
  rcases hop with rfl | rfl <;> simp_all [grouped]

/-- A tree of tokens without sum has an operand or a product on top. -/
theorem leaf_or_product {t : Tree} {ls : List Lexeme} (hs : t.hasSum = false)
    (hi : t.inOrder = some ls) : t.isLeaf ∨ t.isProduct := by
  cases t with
  | literal a => exact Or.inl rfl
  | name text quoted => exact Or.inl rfl
  | binary op left right =>
    cases op <;> simp_all [hasSum, isProduct, inOrder, Lexeme.ofOperator?]
  | hole => simp [inOrder] at hi

theorem inOrder_ne_nil {t : Tree} : t.inOrder ≠ some [] := by
  cases t with
  | literal a => simp [inOrder]
  | name text quoted => simp [inOrder]
  | binary op left right => simp [inOrder, Option.bind_eq_some_iff]
  | hole => simp [inOrder]

theorem inOrder_binary {op : Operator} {left right : Tree} {ls : List Lexeme}
    (h : (binary op left right).inOrder = some ls) :
    ∃ ll l lr, left.inOrder = some ll ∧ Lexeme.ofOperator? op = some l ∧
      right.inOrder = some lr ∧ ls = ll ++ l :: lr := by
  simp only [inOrder, Option.bind_eq_bind, Option.bind_eq_some_iff, Option.pure_def,
    Option.some.injEq] at h
  obtain ⟨ll, hl, l, ho, lr, hr, rfl⟩ := h
  exact ⟨ll, l, lr, hl, ho, hr, rfl⟩

end Tree

/-! ### The sum read so far -/

namespace Pending

/-- The sum read so far is grouped and waits with an addition or a subtraction. -/
def Grouped : Pending → Prop
  | nothing => True
  | sum left op => left.grouped ∧ (op = .add ∨ op = .sub)

/-- The tokens of the sum read so far, with the operator that waits. -/
def inOrder : Pending → Option (List Lexeme)
  | nothing => some []
  | sum left op => do return (← left.inOrder) ++ [← Lexeme.ofOperator? op]

theorem grouped_close {pending : Pending} {term : Tree} (hp : pending.Grouped) (ht : term.grouped)
    (hs : term.hasSum = false) : (pending.close term).grouped := by
  cases pending with
  | nothing => exact ht
  | sum left op =>
    obtain ⟨hl, rfl | rfl⟩ := hp
    · simp [close, Tree.grouped, hl, ht, hs]
    · simp [close, Tree.grouped, hl, ht, hs]

theorem inOrder_close {pending : Pending} {term : Tree} {pre ls : List Lexeme}
    (hp : pending.inOrder = some pre) (ht : term.inOrder = some ls) :
    (pending.close term).inOrder = some (pre ++ ls) := by
  cases pending with
  | nothing =>
    simp only [inOrder, Option.some.injEq] at hp
    subst hp; exact ht
  | sum left op =>
    simp only [inOrder, Option.bind_eq_bind, Option.bind_eq_some_iff, Option.pure_def,
      Option.some.injEq] at hp
    obtain ⟨ll, hl, l, ho, rfl⟩ := hp
    simp [close, Tree.inOrder, hl, ho, ht]

end Pending

/-! ### Reading on -/

namespace Lexeme

theorem productOperator?_eq_some_iff {l : Lexeme} {op : Operator} :
    l.productOperator? = some op ↔ ofOperator? op = some l ∧ (op = .mul ∨ op = .div) := by
  cases l <;> cases op <;> simp [productOperator?, ofOperator?]

theorem sumOperator?_eq_some_iff {l : Lexeme} {op : Operator} :
    l.sumOperator? = some op ↔ ofOperator? op = some l ∧ (op = .add ∨ op = .sub) := by
  cases l <;> cases op <;> simp [sumOperator?, ofOperator?]

theorem productOperator?_eq_none {l : Lexeme} {op : Operator} (h : ofOperator? op = some l)
    (hop : op = .add ∨ op = .sub) : l.productOperator? = none := by
  rcases hop with rfl | rfl <;> simp only [ofOperator?, Option.some.injEq] at h <;> subst h <;> rfl

theorem isOperator_of_ofOperator? {l : Lexeme} {op : Operator} (h : ofOperator? op = some l) :
    l.isOperator := by
  cases op <;> simp only [ofOperator?, Option.some.injEq, reduceCtorEq] at h <;> subst h <;> rfl

theorem isOperator_eq_false {l : Lexeme} (hp : l.productOperator? = none)
    (hs : l.sumOperator? = none) : l.isOperator = false := by
  cases l <;> simp_all [productOperator?, sumOperator?, isOperator]

end Lexeme

namespace Tree

variable {pending : Pending} {product tree : Tree} {t operand : Token} {ts rest : List Token}

/-- Reads the first operand and reads on. -/
def readFrom (pending : Pending) : List Token → Except ParseError Tree
  | [] => .error .empty
  | t :: rest => do readOn pending (← ofOperand t) rest

theorem readFrom_cons (hr : ofOperand t = .ok tree) :
    readFrom pending (t :: rest) = readOn pending tree rest := by
  simp only [readFrom, hr]
  rfl

theorem readOn_product {op : Operator} {right : Tree} (ho : t.lexeme.productOperator? = some op)
    (hr : ofOperand operand = .ok right) :
    readOn pending product (t :: operand :: rest) =
      readOn pending (.binary op product right) rest := by
  simp only [readOn, ho, hr]
  rfl

theorem readOn_sum {op : Operator} (hp : t.lexeme.productOperator? = none)
    (hs : t.lexeme.sumOperator? = some op) :
    readOn pending product (t :: operand :: rest) =
      readFrom (.sum (pending.close product) op) (operand :: rest) := by
  simp only [readOn, hp, hs]
  rfl

theorem readOn_no_operand {e : ParseError} (ho : t.lexeme.isOperator)
    (hr : ofOperand operand = .error e) :
    readOn pending product (t :: operand :: rest) = .error e := by
  rcases hp : t.lexeme.productOperator? with _ | op
  · rcases hs : t.lexeme.sumOperator? with _ | op
    · rw [Lexeme.isOperator_eq_false hp hs] at ho; simp at ho
    · simp only [readOn, hp, hs, hr]; rfl
  · simp only [readOn, hp, hr]; rfl

theorem readOn_no_operator (ho : t.lexeme.isOperator = false) :
    readOn pending product (t :: operand :: rest) = .error (.unexpected t) := by
  rcases hp : t.lexeme.productOperator? with _ | op
  · rcases hs : t.lexeme.sumOperator? with _ | op
    · simp only [readOn, hp, hs]
    · rw [Lexeme.isOperator_of_ofOperator? (Lexeme.sumOperator?_eq_some_iff.mp hs).1] at ho
      simp at ho
  · rw [Lexeme.isOperator_of_ofOperator? (Lexeme.productOperator?_eq_some_iff.mp hp).1] at ho
    simp at ho

/-- One step of reading on: the four ways an operator and an operand can follow. -/
theorem readOn_step (pending : Pending) (product : Tree) (t operand : Token) (rest : List Token) :
    (t.lexeme.isOperator = false ∧
      readOn pending product (t :: operand :: rest) = .error (.unexpected t)) ∨
    (t.lexeme.isOperator ∧ ∃ e, ofOperand operand = .error e ∧
      readOn pending product (t :: operand :: rest) = .error e) ∨
    (∃ op right, Lexeme.ofOperator? op = some t.lexeme ∧ (op = .mul ∨ op = .div) ∧
      t.lexeme.isOperator ∧ ofOperand operand = .ok right ∧
      readOn pending product (t :: operand :: rest) =
        readOn pending (.binary op product right) rest) ∨
    (∃ op term, Lexeme.ofOperator? op = some t.lexeme ∧ (op = .add ∨ op = .sub) ∧
      t.lexeme.isOperator ∧ ofOperand operand = .ok term ∧
      readOn pending product (t :: operand :: rest) =
        readOn (.sum (pending.close product) op) term rest) := by
  rcases ho : t.lexeme.isOperator with _ | _
  · exact Or.inl ⟨rfl, readOn_no_operator ho⟩
  · rcases hr : ofOperand operand with e | right
    · exact Or.inr (Or.inl ⟨rfl, e, rfl, readOn_no_operand ho hr⟩)
    · rcases hp : t.lexeme.productOperator? with _ | op
      · rcases hs : t.lexeme.sumOperator? with _ | op
        · rw [Lexeme.isOperator_eq_false hp hs] at ho; simp at ho
        · obtain ⟨h1, h2⟩ := Lexeme.sumOperator?_eq_some_iff.mp hs
          refine Or.inr (Or.inr (Or.inr ⟨op, right, h1, h2, rfl, rfl, ?_⟩))
          rw [readOn_sum hp hs, readFrom_cons hr]
      · obtain ⟨h1, h2⟩ := Lexeme.productOperator?_eq_some_iff.mp hp
        exact Or.inr (Or.inr (Or.inl ⟨op, right, h1, h2, rfl, rfl, readOn_product hp hr⟩))

/-- One last token is out of turn, or the end mark behind it is. -/
theorem readOn_last (pending : Pending) (product : Tree) (t : Token) (p : Nat) :
    ∃ e, readOn pending product [t, ⟨.finish, p⟩] = .error e ∧
      (t.lexeme.isOperator = false ∧ e.token = t ∨ t.lexeme.isOperator ∧ e.token = ⟨.finish, p⟩) := by
  rcases readOn_step pending product t ⟨.finish, p⟩ [] with ⟨ho, he⟩ | ⟨ho, e, hr, he⟩ |
    ⟨op, right, -, -, -, hr, -⟩ | ⟨op, term, -, -, -, hr, -⟩
  · exact ⟨_, he, Or.inl ⟨ho, rfl⟩⟩
  · exact ⟨_, he, Or.inr ⟨ho, (ofOperand_error hr).1⟩⟩
  · exact absurd (ofOperand_ok hr).2.2.2 (by simp [Lexeme.isOperand])
  · exact absurd (ofOperand_ok hr).2.2.2 (by simp [Lexeme.isOperand])

/-! ### What the reader finds -/

/-- **Reading on is sound.** The tree found is grouped and, in order, has the tokens read before and
those read now; these are operators and operands in turn. -/
theorem readOn_sound : ∀ (ts : List Token) {pending : Pending} {product tree : Tree} {p : Nat}
    {pre ls : List Lexeme}, pending.Grouped → pending.inOrder = some pre → product.grouped →
    product.isLeaf ∨ product.isProduct → product.inOrder = some ls →
    readOn pending product (ts ++ [⟨.finish, p⟩]) = .ok tree →
    tree.grouped ∧ tree.inOrder = some (pre ++ ls ++ ts.map Token.lexeme)
  | [], pending, product, tree, p, pre, ls, hp, hpi, hg, hs, hi, h => by
    have hc : pending.close product = tree := by simpa [readOn] using h
    subst hc
    refine ⟨Pending.grouped_close hp hg (hasSum_eq_false hg hs), ?_⟩
    rw [Pending.inOrder_close hpi hi, List.map_nil, List.append_nil]
  | [t], pending, product, tree, p, pre, ls, hp, hpi, hg, hs, hi, h => by
    obtain ⟨e, he, -⟩ := readOn_last pending product t p
    rw [List.singleton_append, he] at h
    cases h
  | t :: operand :: ts, pending, product, tree, p, pre, ls, hp, hpi, hg, hs, hi, h => by
    simp only [List.cons_append] at h
    rcases readOn_step pending product t operand (ts ++ [⟨.finish, p⟩]) with ⟨-, he⟩ |
      ⟨-, e, -, he⟩ | ⟨op, right, ho, hop, -, hr, he⟩ | ⟨op, term, ho, hop, -, hr, he⟩
    · rw [he] at h; simp at h
    · rw [he] at h; simp at h
    · obtain ⟨hrl, hrg, hri, -⟩ := ofOperand_ok hr
      have hg' := grouped_product hop hg hs hrg hrl
      have hi' : (binary op product right).inOrder =
          some (ls ++ [t.lexeme, operand.lexeme]) := by
        simp [inOrder, hi, ho, hri]
      rw [he] at h
      obtain ⟨h1, h2⟩ := readOn_sound ts hp hpi hg'.1 (Or.inr hg'.2) hi' h
      exact ⟨h1, by rw [h2]; simp⟩
    · obtain ⟨hrl, hrg, hri, -⟩ := ofOperand_ok hr
      have hc := Pending.grouped_close hp hg (hasSum_eq_false hg hs)
      have hpi' : (Pending.sum (pending.close product) op).inOrder =
          some (pre ++ ls ++ [t.lexeme]) := by
        simp [Pending.inOrder, Pending.inOrder_close hpi hi, ho]
      rw [he] at h
      have hp' : (Pending.sum (pending.close product) op).Grouped := ⟨hc, hop⟩
      obtain ⟨h1, h2⟩ := readOn_sound ts hp' hpi' hrg (Or.inl hrl) hri h
      exact ⟨h1, by rw [h2]; simp⟩

/-- Reading on succeeds iff operators and operands follow in turn. -/
theorem readOn_ok_iff : ∀ (ts : List Token) (pending : Pending) (product : Tree) (p : Nat)
    {l : Lexeme}, l.isOperand →
    ((∃ tree, readOn pending product (ts ++ [⟨.finish, p⟩]) = .ok tree) ↔
      Lexeme.alternates (l :: ts.map Token.lexeme))
  | [], pending, product, p, l, hl => by simp [readOn, Lexeme.alternates, hl]
  | [t], pending, product, p, l, hl => by
    obtain ⟨e, he, -⟩ := readOn_last pending product t p
    rw [List.singleton_append, he]
    simp [Lexeme.alternates]
  | t :: operand :: ts, pending, product, p, l, hl => by
    simp only [List.cons_append]
    rcases readOn_step pending product t operand (ts ++ [⟨.finish, p⟩]) with ⟨ho, he⟩ |
      ⟨ho, e, hr, he⟩ | ⟨op, right, -, -, ho, hr, he⟩ | ⟨op, term, -, -, ho, hr, he⟩
    · simp [he, Lexeme.alternates, ho]
    · have hn := (ofOperand_error hr).2
      have : Lexeme.alternates (operand.lexeme :: ts.map Token.lexeme) = false := by
        cases ts <;> simp [Lexeme.alternates, hn]
      simp [he, Lexeme.alternates, this]
    · rw [he, readOn_ok_iff ts _ _ p (ofOperand_ok hr).2.2.2]
      simp [Lexeme.alternates, hl, ho]
    · rw [he, readOn_ok_iff ts _ _ p (ofOperand_ok hr).2.2.2]
      simp [Lexeme.alternates, hl, ho]

/-- **Reading on fails at the first token out of turn.** An operator is due at an odd place. -/
theorem readOn_error : ∀ (ts : List Token) {pending : Pending} {product : Tree} {p place : Nat}
    {e : ParseError}, (∀ t ∈ ts, t.lexeme ≠ .finish) → place % 2 = 1 →
    readOn pending product (ts ++ [⟨.finish, p⟩]) = .error e →
    Token.FirstOutOfTurn place (ts ++ [⟨.finish, p⟩]) e.token
  | [], pending, product, p, place, e, hne, hp, h => by simp [readOn] at h
  | [t], pending, product, p, place, e, hne, hp, h => by
    have ht : t.lexeme ≠ .finish := hne t (by simp)
    obtain ⟨e', he, hturn⟩ := readOn_last pending product t p
    rw [List.singleton_append] at h ⊢
    rw [he, Except.error.injEq] at h
    subst h
    rcases hturn with ⟨ho, htoken⟩ | ⟨ho, htoken⟩
    · rw [htoken]
      exact .here (Lexeme.inTurn_odd_eq_false hp ho ht)
    · rw [htoken]
      exact .later (Lexeme.inTurn_odd hp ho) (.here (Lexeme.inTurn_even (by omega)))
  | t :: operand :: ts, pending, product, p, place, e, hne, hp, h => by
    have ht : t.lexeme ≠ .finish := hne t (by simp)
    have hne' : ∀ t ∈ ts, t.lexeme ≠ .finish := fun t h => hne t (by simp [h])
    simp only [List.cons_append] at h ⊢
    rcases readOn_step pending product t operand (ts ++ [⟨.finish, p⟩]) with ⟨ho, he⟩ |
      ⟨ho, e', hr, he⟩ | ⟨op, right, -, -, ho, hr, he⟩ | ⟨op, term, -, -, ho, hr, he⟩
    · rw [he, Except.error.injEq] at h
      subst h
      exact .here (Lexeme.inTurn_odd_eq_false hp ho ht)
    · rw [he, Except.error.injEq] at h
      subst h
      obtain ⟨het, hn⟩ := ofOperand_error hr
      rw [het]
      exact .later (Lexeme.inTurn_odd hp ho) (.here (by rw [Lexeme.inTurn_even (by omega), hn]))
    · rw [he] at h
      have hoperand := (ofOperand_ok hr).2.2.2
      exact .later (Lexeme.inTurn_odd hp ho) (.later (by rw [Lexeme.inTurn_even (by omega), hoperand])
        (readOn_error ts hne' (by omega) h))
    · rw [he] at h
      have hoperand := (ofOperand_ok hr).2.2.2
      exact .later (Lexeme.inTurn_odd hp ho) (.later (by rw [Lexeme.inTurn_even (by omega), hoperand])
        (readOn_error ts hne' (by omega) h))

/-! ### Every grouped tree is found -/

theorem inOrder_of_isLeaf {leaf : Tree} (hl : leaf.isLeaf) : ∃ l, leaf.inOrder = some [l] := by
  cases leaf with
  | literal a => exact ⟨_, rfl⟩
  | name text quoted => exact ⟨_, rfl⟩
  | binary op left right => simp [isLeaf] at hl
  | hole => simp [isLeaf] at hl

theorem readFrom_of_leaf {leaf : Tree} (hl : leaf.isLeaf)
    (hi : leaf.inOrder = some (ts.map Token.lexeme)) :
    readFrom pending (ts ++ rest) = readOn pending leaf rest := by
  obtain ⟨l, hl'⟩ := inOrder_of_isLeaf hl
  have hts : ts.map Token.lexeme = [l] := by
    rw [hl', Option.some.injEq] at hi
    exact hi.symm
  obtain ⟨t, rfl, rfl⟩ := List.map_eq_singleton_iff.mp hts
  exact readFrom_cons (ofOperand_of_leaf hl hl')

/-- The tokens of a binary tree are those of its left side, the operator and those of its right. -/
theorem tokens_binary {op : Operator} {left right : Tree}
    (h : (binary op left right).inOrder = some (ts.map Token.lexeme)) :
    ∃ tl t tr, ts = tl ++ t :: tr ∧ left.inOrder = some (tl.map Token.lexeme) ∧
      Lexeme.ofOperator? op = some t.lexeme ∧ right.inOrder = some (tr.map Token.lexeme) := by
  obtain ⟨ll, l, lr, hl, ho, hr, hts⟩ := inOrder_binary h
  obtain ⟨tl, tr', rfl, rfl, htr⟩ := List.map_eq_append_iff.mp hts
  obtain ⟨t, tr, rfl, rfl, rfl⟩ := List.map_eq_cons_iff.mp htr
  exact ⟨tl, t, tr, rfl, hl, ho, hr⟩

/-- **A product is read** where its tokens stand. -/
theorem readFrom_of_product (term : Tree) : ∀ {ts : List Token} (rest : List Token), term.grouped →
    term.isLeaf ∨ term.isProduct → term.inOrder = some (ts.map Token.lexeme) →
    readFrom pending (ts ++ rest) = readOn pending term rest := by
  induction term with
  | literal a => exact fun rest _ _ hi => readFrom_of_leaf rfl hi
  | name text quoted => exact fun rest _ _ hi => readFrom_of_leaf rfl hi
  | hole => intro ts rest _ _ hi; simp [inOrder] at hi
  | binary op left right ihl ihr =>
    intro ts rest hg hs hi
    have hop : op = .mul ∨ op = .div := by cases op <;> simp_all [isLeaf, isProduct]
    have hparts : left.grouped ∧ (left.isLeaf ∨ left.isProduct) ∧ right.isLeaf := by
      rcases hop with rfl | rfl <;> simp_all [grouped]
    obtain ⟨hgl, hsl, hlr⟩ := hparts
    obtain ⟨tl, t, tr, rfl, hl, ho, hr⟩ := tokens_binary hi
    obtain ⟨l, hl'⟩ := inOrder_of_isLeaf hlr
    have htr : tr.map Token.lexeme = [l] := by
      rw [hl', Option.some.injEq] at hr
      exact hr.symm
    obtain ⟨operand, rfl, rfl⟩ := List.map_eq_singleton_iff.mp htr
    rw [List.append_assoc, ihl _ hgl hsl hl]
    exact readOn_product (Lexeme.productOperator?_eq_some_iff.mpr ⟨ho, hop⟩)
      (ofOperand_of_leaf hlr hl')

/-- **A grouped tree is read** where its tokens stand: as a sum that waits and its last term. -/
theorem readFrom_of_grouped (tree : Tree) : ∀ {ts : List Token}, tree.grouped →
    tree.inOrder = some (ts.map Token.lexeme) → ∃ pending product, pending.close product = tree ∧
      ∀ rest, readFrom .nothing (ts ++ rest) = readOn pending product rest := by
  induction tree with
  | literal a => exact fun _ hi => ⟨.nothing, _, rfl, fun rest => readFrom_of_leaf rfl hi⟩
  | name text quoted => exact fun _ hi => ⟨.nothing, _, rfl, fun rest => readFrom_of_leaf rfl hi⟩
  | hole => intro ts _ hi; simp [inOrder] at hi
  | binary op left right ihl ihr =>
    intro ts hg hi
    obtain ⟨tl, t, tr, rfl, hl, ho, hr⟩ := tokens_binary hi
    by_cases hop : op = .add ∨ op = .sub
    · have hparts : left.grouped ∧ right.grouped ∧ right.hasSum = false := by
        rcases hop with rfl | rfl <;> simp_all [grouped]
      obtain ⟨hgl, hgr, hsr⟩ := hparts
      obtain ⟨pending, product, hc, hread⟩ := ihl hgl hl
      refine ⟨.sum left op, right, rfl, fun rest => ?_⟩
      cases tr with
      | nil => exact absurd hr inOrder_ne_nil
      | cons operand tr =>
        have hs := (Lexeme.sumOperator?_eq_some_iff.mpr ⟨ho, hop⟩)
        rw [List.append_assoc, hread, ← readFrom_of_product right rest hgr
          (leaf_or_product hsr hr) hr, ← hc]
        exact readOn_sum (Lexeme.productOperator?_eq_none ho hop) hs
    · have hp : (binary op left right).isProduct := by
        cases op <;> simp_all [isProduct, Lexeme.ofOperator?]
      exact ⟨.nothing, _, rfl, fun rest => readFrom_of_product _ rest hg (Or.inr hp) hi⟩

/-! ### Reading an expression -/

theorem ofTokens_cons (h : t.lexeme ≠ .finish) : ofTokens (t :: rest) = readFrom .nothing (t :: rest) :=
  if_neg h

/-- The tree read is grouped and has the tokens in order. -/
theorem ofTokens_sound {p : Nat} (h : ofTokens (ts ++ [⟨.finish, p⟩]) = .ok tree) :
    tree.grouped ∧ tree.inOrder = some (ts.map Token.lexeme) := by
  cases ts with
  | nil => simp [ofTokens] at h
  | cons t ts =>
    by_cases ht : t.lexeme = .finish
    · simp [ofTokens, ht] at h
    · rw [List.cons_append, ofTokens_cons ht] at h
      rcases hr : ofOperand t with e | leaf
      · simp only [readFrom, hr] at h; cases h
      · obtain ⟨hl, hg, hi, -⟩ := ofOperand_ok hr
        rw [readFrom_cons hr] at h
        have hp : Pending.nothing.Grouped := trivial
        exact readOn_sound ts hp rfl hg (Or.inl hl) hi h

/-- Every grouped tree that has the tokens in order is read. -/
theorem ofTokens_complete {p : Nat} (hne : ∀ t ∈ ts, t.lexeme ≠ .finish) (hg : tree.grouped)
    (hi : tree.inOrder = some (ts.map Token.lexeme)) :
    ofTokens (ts ++ [⟨.finish, p⟩]) = .ok tree := by
  obtain ⟨pending, product, rfl, hread⟩ := readFrom_of_grouped tree hg hi
  cases ts with
  | nil => exact absurd hi inOrder_ne_nil
  | cons t ts =>
    rw [List.cons_append, ofTokens_cons (hne t (by simp)), ← List.cons_append, hread]
    simp [readOn]

theorem ofTokens_ok_iff {p : Nat} (hne : ∀ t ∈ ts, t.lexeme ≠ .finish) :
    (∃ tree, ofTokens (ts ++ [⟨.finish, p⟩]) = .ok tree) ↔
      Lexeme.alternates (ts.map Token.lexeme) := by
  cases ts with
  | nil => simp [ofTokens, Lexeme.alternates]
  | cons t ts =>
    rw [List.cons_append, ofTokens_cons (hne t (by simp))]
    rcases hr : ofOperand t with e | leaf
    · have hn := (ofOperand_error hr).2
      have : Lexeme.alternates ((t :: ts).map Token.lexeme) = false := by
        cases ts <;> simp [Lexeme.alternates, hn]
      simp only [readFrom, hr, this]
      simp [bind, Except.bind]
    · rw [readFrom_cons hr]
      exact readOn_ok_iff ts _ _ p (ofOperand_ok hr).2.2.2

theorem ofTokens_error {p : Nat} {e : ParseError} (hne : ∀ t ∈ ts, t.lexeme ≠ .finish)
    (hn : ts ≠ []) (h : ofTokens (ts ++ [⟨.finish, p⟩]) = .error e) :
    Token.FirstOutOfTurn 0 (ts ++ [⟨.finish, p⟩]) e.token := by
  cases ts with
  | nil => exact absurd rfl hn
  | cons t ts =>
    rw [List.cons_append, ofTokens_cons (hne t (by simp))] at h
    rcases hr : ofOperand t with e' | leaf
    · simp only [readFrom, hr] at h
      obtain rfl : e' = e := by simpa [bind, Except.bind] using h
      obtain ⟨het, ho⟩ := ofOperand_error hr
      rw [het]
      exact .here ho
    · rw [readFrom_cons hr] at h
      exact .later (ofOperand_ok hr).2.2.2
        (readOn_error ts (fun t h => hne t (by simp [h])) rfl h)

theorem parse_of_tokenize {cs : List Char} {all : List Token} (h : tokenize cs = .ok all) :
    parse cs = (ofTokens all).mapError .parse := by
  rw [parse, h]
  rfl

theorem parse_ok_iff {cs : List Char} {all : List Token} (h : tokenize cs = .ok all) :
    parse cs = .ok tree ↔ ofTokens all = .ok tree := by
  rw [parse_of_tokenize h]
  cases ofTokens all <;> simp [Except.mapError]

theorem parse_error_iff {cs : List Char} {all : List Token} {failure : Failure}
    (h : tokenize cs = .ok all) :
    parse cs = .error failure ↔ ∃ e, failure = .parse e ∧ ofTokens all = .error e := by
  rw [parse_of_tokenize h]
  cases ofTokens all <;> simp [Except.mapError, eq_comm]

/-- The tokens of a text that is read, without the end mark, are those of its tree. -/
theorem tokens_of_parse {cs : List Char} (h : parse cs = .ok tree) : ∃ ts finish,
    tokenize cs = .ok (ts ++ [finish]) ∧ tree.grouped ∧ tree.inOrder = some (ts.map Token.lexeme) := by
  cases ht : tokenize cs with
  | error failure =>
    rw [parse, ht] at h
    cases h
  | ok all =>
    obtain ⟨ts, p, rfl, -⟩ := Cursor.tokens_shape _ ht
    exact ⟨ts, ⟨.finish, p⟩, rfl, ofTokens_sound ((parse_ok_iff ht).mp h)⟩

/-- **The tree of an expression.** A text with the tokens `ts` and an end mark is read iff `ts`
alternate, and then as the only grouped tree whose tokens in order are `ts`. If it is not read, it is
empty or the error names the first token, the end mark included, that is out of turn. -/
theorem parse_iff_alternates (cs : List Char) (ts : List Token) (finish : Token)
    (h : tokenize cs = .ok (ts ++ [finish])) :
    ((∃ tree, parse cs = .ok tree) ↔ Lexeme.alternates (ts.map Token.lexeme)) ∧
    (∀ tree, parse cs = .ok tree ↔
      tree.inOrder = some (ts.map Token.lexeme) ∧ tree.grouped) ∧
    (ts = [] → parse cs = .error (.parse .empty)) ∧
    ∀ failure, ts ≠ [] → parse cs = .error failure →
      ∃ e, failure = .parse e ∧ Token.FirstOutOfTurn 0 (ts ++ [finish]) e.token := by
  obtain ⟨ts', p, hts, hne⟩ := Cursor.tokens_shape _ h
  obtain ⟨rfl, hfinish⟩ := List.append_inj' hts rfl
  obtain rfl : finish = ⟨.finish, p⟩ := by simpa using hfinish
  refine ⟨?_, fun tree => ?_, ?_, ?_⟩
  · simp only [parse_ok_iff h]
    exact ofTokens_ok_iff hne
  · rw [parse_ok_iff h]
    exact ⟨fun ht => (ofTokens_sound ht).symm, fun ⟨hi, hg⟩ => ofTokens_complete hne hg hi⟩
  · rintro rfl
    exact (parse_error_iff h).mpr ⟨.empty, rfl, rfl⟩
  · intro failure hn hf
    obtain ⟨e, rfl, he⟩ := (parse_error_iff h).mp hf
    exact ⟨e, rfl, ofTokens_error hne hn he⟩

/-- `a-b` is one name, and the quotient stands below the sum; in `a + * b` the second sign stands
where an operand is due. -/
theorem parse_iff_alternates_of_signs :
    (tokenize "a-b + 2 / c".toList = .ok ([⟨.name "a-b", 0⟩, ⟨.plus, 4⟩, ⟨.number (.int 2), 6⟩,
        ⟨.divide, 8⟩, ⟨.name "c", 10⟩] ++ [⟨.finish, 11⟩]) ∧
      parse "a-b + 2 / c".toList = .ok (binary .add (name "a-b" false)
        (binary .div (literal (.int 2)) (name "c" false)))) ∧
    tokenize "a + * b".toList = .ok ([⟨.name "a", 0⟩, ⟨.plus, 2⟩, ⟨.times, 4⟩, ⟨.name "b", 6⟩] ++
        [⟨.finish, 7⟩]) ∧
      ¬ ∃ tree, parse "a + * b".toList = .ok tree := by
  have h : tokenize "a-b + 2 / c".toList = .ok ([⟨.name "a-b", 0⟩, ⟨.plus, 4⟩,
      ⟨.number (.int 2), 6⟩, ⟨.divide, 8⟩, ⟨.name "c", 10⟩] ++ [⟨.finish, 11⟩]) := by cbv
  have h' : tokenize "a + * b".toList = .ok ([⟨.name "a", 0⟩, ⟨.plus, 2⟩, ⟨.times, 4⟩,
      ⟨.name "b", 6⟩] ++ [⟨.finish, 7⟩]) := by cbv
  refine ⟨⟨h, ((parse_iff_alternates _ _ _ h).2.1 _).mpr (by decide)⟩, h', ?_⟩
  rw [(parse_iff_alternates _ _ _ h').1]
  decide

end Tree

end RowPipeline
