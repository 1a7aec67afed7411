import Mathlib.Algebra.BigOperators.Group.List.Basic
import RowPipeline.Proofs.Expression.Assignment
import RowPipeline.Proofs.Expression.Renaming

/-!
# Whole numbers are worked out exactly

The tokens of an expression without division denote a whole number if its operands do: cut at the signs of
sums into terms, multiply the operands of each term, and add and subtract the terms from left to right
(`Lexeme.sumOfProducts`). That is said of the tokens, without a tree.

The tree comes to the same number (`Tree.compute_whole`), because it is grouped: the tokens of the right side
of a sum are the last term (`Lexeme.terms_append`), and those of a product are one term. Whole numbers
multiply, add and subtract exactly, so nothing is rounded on the way and nothing is too large.
-/

namespace RowPipeline

variable {value : String → Int}

namespace Lexeme

variable {l : Lexeme} {ls term : List Lexeme}

/-! ### Sums of products of tokens -/

/-- Whether a token is a whole number, a name, or one of the signs of addition, subtraction and
multiplication. -/
def isWhole : Lexeme → Bool
  | number (.int _) => true
  | name _ => true
  | quoted _ => true
  | plus => true
  | minus => true
  | times => true
  | _ => false

/-- Whether a token separates two terms. -/
def isSumSign (l : Lexeme) : Bool := l == plus || l == minus

/-- The terms of a token list: the first one, and each other one with the sign in front of it. -/
def terms : List Lexeme → List Lexeme × List (Lexeme × List Lexeme)
  | [] => ([], [])
  | l :: ls =>
    if l.isSumSign then ([], (l, (terms ls).1) :: (terms ls).2)
    else (l :: (terms ls).1, (terms ls).2)

/-- The whole number that an operand stands for. -/
def whole? (value : String → Int) : Lexeme → Option Int
  | number (.int n) => some n
  | name text => some (value text)
  | quoted text => some (value text)
  | _ => none

/-- The product of the operands of a term. -/
def product (value : String → Int) (term : List Lexeme) : Int := (term.filterMap (whole? value)).prod

/-- Adds a term, or subtracts it. -/
def addTerm (value : String → Int) (total : Int) (signed : Lexeme × List Lexeme) : Int :=
  if signed.1 = minus then total - product value signed.2 else total + product value signed.2

/-- The products of the terms, added and subtracted from left to right. -/
def sumOfProducts (value : String → Int) (ls : List Lexeme) : Int :=
  (terms ls).2.foldl (addTerm value) (product value (terms ls).1)

/-- Tokens without sign of a sum are one term. -/
theorem terms_of_product (h : ∀ l ∈ ls, l.isSumSign = false) : terms ls = (ls, []) := by
  induction ls with
  | nil => rfl
  | cons l ls ih =>
    have hl : l.isSumSign = false := h l (by simp)
    have hls : terms ls = (ls, []) := ih fun l' hl' => h l' (by simp [hl'])
    rw [terms, hl, hls]
    rfl

/-- **A sign and one more term** behind a token list. -/
theorem terms_append (hl : l.isSumSign) (hterm : ∀ l' ∈ term, l'.isSumSign = false) :
    terms (ls ++ l :: term) = ((terms ls).1, (terms ls).2 ++ [(l, term)]) := by
  induction ls with
  | nil =>
    have hcons : terms (l :: term) = ([], (l, (terms term).1) :: (terms term).2) := if_pos hl
    rw [List.nil_append, hcons, terms_of_product hterm]
    rfl
  | cons l' ls ih =>
    rw [List.cons_append, terms, terms, ih]
    cases l'.isSumSign with
    | false => rfl
    | true => rfl

theorem sumOfProducts_of_product (h : ∀ l ∈ ls, l.isSumSign = false) :
    sumOfProducts value ls = product value ls := by
  rw [sumOfProducts, terms_of_product h]
  rfl

theorem sumOfProducts_append (hl : l.isSumSign) (hterm : ∀ l' ∈ term, l'.isSumSign = false) :
    sumOfProducts value (ls ++ l :: term) = addTerm value (sumOfProducts value ls) (l, term) := by
  rw [sumOfProducts, terms_append hl hterm]
  exact List.foldl_concat _ _ _ _

theorem product_append_times (ls ls' : List Lexeme) :
    product value (ls ++ times :: ls') = product value ls * product value ls' := by
  have hsign : (times :: ls').filterMap (whole? value) = ls'.filterMap (whole? value) :=
    List.filterMap_cons_none rfl
  rw [product, List.filterMap_append, hsign, List.prod_append]
  rfl

theorem product_singleton {n : Int} (h : whole? value l = some n) : product value [l] = n := by
  rw [product, List.filterMap_cons_some h, List.filterMap_nil, List.prod_singleton]

end Lexeme

/-! ### Trees of whole numbers -/

namespace Tree

open Lexeme Expression

variable {t : Tree} {ls : List Lexeme}

/-- A tree without sum has no sign of a sum among its tokens. -/
theorem isSumSign_of_hasSum (ho : t.inOrder = some ls) (hs : t.hasSum = false) :
    ∀ l ∈ ls, l.isSumSign = false := by
  induction t generalizing ls with
  | literal a =>
    obtain rfl : [Lexeme.number a] = ls := Option.some.inj ho
    simp [isSumSign]
  | name text quoted =>
    obtain rfl : [Lexeme.ofName text quoted] = ls := Option.some.inj ho
    cases quoted <;> simp [ofName, isSumSign]
  | binary op left right ihl ihr =>
    obtain ⟨ll, l, lr, hl, hop, hr, rfl⟩ := inOrder_binary ho
    have hparts : l.isSumSign = false ∧ left.hasSum = false ∧ right.hasSum = false := by
      cases op with
      | add => cases hs
      | sub => cases hs
      | mul =>
        obtain rfl : Lexeme.times = l := Option.some.inj hop
        exact ⟨rfl, Bool.or_eq_false_iff.mp hs⟩
      | div =>
        obtain rfl : Lexeme.divide = l := Option.some.inj hop
        exact ⟨rfl, Bool.or_eq_false_iff.mp hs⟩
      | other symbol => cases hop
    intro l' hl'
    rcases List.mem_append.mp hl' with hleft | hl'
    · exact ihl hl hparts.2.1 l' hleft
    · rcases List.mem_cons.mp hl' with rfl | hright
      · exact hparts.1
      · exact ihr hr hparts.2.2 l' hright
  | hole => cases ho

/-- **A tree of whole numbers comes to the sum of the products of its tokens.** -/
theorem compute_whole {source : String} (ho : t.inOrder = some ls) (hg : t.grouped)
    (hw : ∀ l ∈ ls, l.isWhole) :
    t.compute (fun name => .ok (.int (value name))) source = .ok (.int (sumOfProducts value ls)) := by
  induction t generalizing ls with
  | literal a =>
    obtain rfl : [Lexeme.number a] = ls := Option.some.inj ho
    cases a with
    | float x => cases hw (.number (.float x)) (by simp)
    | int n =>
      rw [sumOfProducts_of_product (by simp [isSumSign]), product_singleton rfl]
      rfl
  | name text quoted =>
    obtain rfl : [Lexeme.ofName text quoted] = ls := Option.some.inj ho
    have hwhole : whole? value (ofName text quoted) = some (value text) := by cases quoted <;> rfl
    have hsign : ∀ l ∈ [ofName text quoted], l.isSumSign = false := by
      cases quoted <;> simp [ofName, isSumSign]
    rw [sumOfProducts_of_product hsign, product_singleton hwhole]
    rfl
  | binary op left right ihl ihr =>
    obtain ⟨ll, l, lr, hl, hop, hr, rfl⟩ := inOrder_binary ho
    have hwl : ∀ l' ∈ ll, l'.isWhole := fun l' h => hw l' (by simp [h])
    have hwr : ∀ l' ∈ lr, l'.isWhole := fun l' h => hw l' (by simp [h])
    obtain ⟨hgl, hgr⟩ := grouped_of_binary hg
    have hstep : (binary op left right).compute (fun name => .ok (.int (value name))) source =
        op.apply (.int (sumOfProducts value ll)) (.int (sumOfProducts value lr)) source := by
      rw [compute, ihl hl hgl hwl, ihr hr hgr hwr]
      rfl
    -- the right side of a sum is its last term
    have hsum : op = .add ∨ op = .sub → l.isSumSign →
        addTerm value (sumOfProducts value ll) (l, lr) = sumOfProducts value (ll ++ l :: lr) ∧
          sumOfProducts value lr = product value lr := by
      intro hop hsign
      have hterm := isSumSign_of_hasSum hr (hasSum_right hop hg)
      exact ⟨(sumOfProducts_append hsign hterm).symm, sumOfProducts_of_product hterm⟩
    cases op with
    | add =>
      obtain rfl : Lexeme.plus = l := Option.some.inj hop
      obtain ⟨hall, hlast⟩ := hsum (Or.inl rfl) rfl
      rw [hstep, hlast, ← hall]
      rfl
    | sub =>
      obtain rfl : Lexeme.minus = l := Option.some.inj hop
      obtain ⟨hall, hlast⟩ := hsum (Or.inr rfl) rfl
      rw [hstep, hlast, ← hall]
      rfl
    | mul =>
      obtain rfl : Lexeme.times = l := Option.some.inj hop
      have hsign := isSumSign_of_hasSum ho (hasSum_eq_false hg (Or.inr rfl))
      have hleft : ∀ l ∈ ll, l.isSumSign = false := fun l h => hsign l (by simp [h])
      have hright : ∀ l ∈ lr, l.isSumSign = false := fun l h => hsign l (by simp [h])
      rw [hstep, sumOfProducts_of_product hsign, product_append_times, sumOfProducts_of_product hleft,
        sumOfProducts_of_product hright]
      rfl
    | div =>
      obtain rfl : Lexeme.divide = l := Option.some.inj hop
      cases hw .divide (by simp)
    | other symbol => cases hop
  | hole => cases ho

/-- A tree that is read yields the whole number if the numbers of its names can be written. -/
theorem yields_whole {cs : List Char} (hp : parse cs = .ok t) (ho : t.inOrder = some ls) (hg : t.grouped)
    (hw : ∀ l ∈ ls, l.isWhole) (hshort : ∀ name, Mentions t name → (value name).natAbs < Numeral.bound) :
    (t.assign fun name => .int (value name)).Yields (some (.int (sumOfProducts value ls))) := by
  refine ⟨?_, .int (sumOfProducts value ls), ?_, rfl⟩
  · rw [holdsLong_assign, not_or]
    refine ⟨not_holdsLong_of_parse hp, ?_⟩
    rintro ⟨name, hmention, hlong⟩
    exact absurd (hshort name hmention) (not_lt.mpr hlong)
  · rw [ComesTo, compute_assign, compute_whole ho hg hw]

end Tree

/-! ### The value of a text -/

namespace Expression

/-- A row with a rate beyond the whole numbers that a double can tell apart, and a negative discount. -/
def rated : Record :=
  ⟨[(.text "rate", .int 100000000000000000001), (.text "per year", .int (-7))], by decide⟩

/-- **Whole numbers are worked out exactly.** A marked text that is read, without division and without
decimals, has the sum of the products of its tokens as its value, if the context holds a whole number that
can be written for each of its names. Nothing is rounded, however large the value is. -/
theorem evaluate_whole (context : Record) (field : Key) (s : String) (ts : List Token) (finish : Token)
    (value : String → Int) (hf : field ≠ timestamp) (hm : hasMarker s)
    (ht : tokenize (body s) = .ok (ts ++ [finish])) (hp : ∃ tree, Tree.parse (body s) = .ok tree)
    (hw : ∀ t ∈ ts, t.lexeme.isWhole)
    (hv : ∀ t ∈ ts, ∀ name, t.lexeme.isNamed name →
      context.get? (.text name) = some (.int (value name)) ∧ (value name).natAbs < Numeral.bound) :
    (evaluate context [] field (.text s)).outcome =
      .ok (.int (Lexeme.sumOfProducts value (ts.map Token.lexeme))) := by
  obtain ⟨tree, hp⟩ := hp
  obtain ⟨ts', finish', ht', hg, ho⟩ := Tree.tokens_of_parse hp
  obtain ⟨rfl, -⟩ := List.append_inj' (Except.ok.inj (ht'.symm.trans ht)) rfl
  have hex : Examined [] field s := ⟨hf, needsEvaluation_iff.mpr ⟨s, rfl, Or.inl hm⟩, rfl⟩
  have hnames : ∀ name, Mentions tree name →
      context.get? (.text name) = some (.int (value name)) ∧ (value name).natAbs < Numeral.bound := by
    intro name hmention
    obtain ⟨l, hl, hnamed⟩ := (Tree.mentions_iff ho).mp hmention
    obtain ⟨t, ht, rfl⟩ := List.mem_map.mp hl
    exact hv t ht name hnamed
  have hwhole : ∀ l ∈ ts'.map Token.lexeme, l.isWhole := by
    intro l hl
    obtain ⟨t, ht, rfl⟩ := List.mem_map.mp hl
    exact hw t ht
  have hyields := Tree.yields_whole hp ho hg hwhole fun name hmention => (hnames name hmention).2
  refine (evaluateWith_ok_iff hex hp).mpr ⟨fun name => .int (value name), ?_, _, hyields, rfl⟩
  intro name hmention
  exact resolve_of_int (hnames name hmention).1

/-- The square of the rate has forty-one digits, and each of them counts. -/
theorem evaluate_whole_of_rated :
    Scalar.text "total" ≠ timestamp ∧ hasMarker "=rate*rate*2 - 3 + \"per year\"" ∧
      (evaluate rated [] (.text "total") (.text "=rate*rate*2 - 3 + \"per year\"")).outcome =
        .ok (.int 20000000000000000000399999999999999999992) := by
  have hf : Scalar.text "total" ≠ timestamp := by decide
  have hm : hasMarker "=rate*rate*2 - 3 + \"per year\"" := by decide
  let ts : List Token := [⟨.name "rate", 0⟩, ⟨.times, 4⟩, ⟨.name "rate", 5⟩, ⟨.times, 9⟩,
    ⟨.number (.int 2), 10⟩, ⟨.minus, 12⟩, ⟨.number (.int 3), 14⟩, ⟨.plus, 16⟩, ⟨.quoted "per year", 18⟩]
  let value : String → Int := fun name => if name = "rate" then 100000000000000000001 else -7
  have ht : tokenize (body "=rate*rate*2 - 3 + \"per year\"") = .ok (ts ++ [⟨.finish, 28⟩]) := by cbv
  let tree : Tree := .binary .add (.binary .sub (.binary .mul (.binary .mul (.name "rate" false)
    (.name "rate" false)) (.literal (.int 2))) (.literal (.int 3))) (.name "per year" true)
  have hp : Tree.parse (body "=rate*rate*2 - 3 + \"per year\"") = .ok tree := by cbv
  have hvalues : ∀ t ∈ ts, ∀ name, t.lexeme.isNamed name →
      rated.get? (.text name) = some (.int (value name)) ∧ (value name).natAbs < Numeral.bound := by
    intro t ht name hnamed
    have hinOrder : tree.inOrder = some (ts.map Token.lexeme) := rfl
    have hmention : Mentions tree name :=
      (Tree.mentions_iff hinOrder).mpr ⟨t.lexeme, List.mem_map_of_mem ht, hnamed⟩
    have hname : name = "rate" ∨ name = "per year" := by
      simpa [Mentions, tree, Tree.names] using hmention
    rcases hname with rfl | rfl
    · exact ⟨rfl, by decide +kernel⟩
    · exact ⟨rfl, by decide +kernel⟩
  have hsum : Lexeme.sumOfProducts value (ts.map Token.lexeme) =
      20000000000000000000399999999999999999992 := by decide +kernel
  refine ⟨hf, hm, ?_⟩
  rw [evaluate_whole rated (.text "total") _ ts ⟨.finish, 28⟩ value hf hm ht ⟨tree, hp⟩ (by decide) hvalues,
    hsum]

end Expression

end RowPipeline
