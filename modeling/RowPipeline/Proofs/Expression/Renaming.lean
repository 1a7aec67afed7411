import Mathlib.Data.List.Basic
import RowPipeline.Proofs.Expression.Evaluation

/-!
# Renaming an operand of a tree

`Tree.renameFirst` gives the first operand of a name, in reading order, another name; everything else in
the tree stays. In the tokens of the tree one token is exchanged (`inOrder_renameFirst`), and products
and sums stand as they stood (`grouped_renameFirst`).
-/

namespace RowPipeline

open Expression

namespace Lexeme

/-- The operand of a name. -/
def ofName (text : String) (quoted : Bool) : Lexeme := if quoted then .quoted text else .name text

/-- Whether this is an operand of a name, bare or quoted. -/
def isNamed (text : String) (l : Lexeme) : Bool := l == .name text || l == .quoted text

theorem isNamed_iff {text : String} {l : Lexeme} :
    l.isNamed text ↔ l = .name text ∨ l = .quoted text := by
  simp [isNamed]

theorem isNamed_ofName {text old : String} {quoted : Bool} :
    (ofName text quoted).isNamed old = decide (text = old) := by
  cases quoted <;> by_cases h : text = old <;> simp [ofName, isNamed, h]

theorem isNamed_operator {text : String} {l : Lexeme} (h : l.isOperator) : l.isNamed text = false := by
  cases l <;> first | rfl | simp [isOperator] at h

end Lexeme

namespace Tree

/-- The tree with its first operand of a name renamed. -/
def renameFirst (old new : String) (quoted : Bool) : Tree → Tree
  | name text q => if text = old then name new quoted else name text q
  | binary op left right =>
    if old ∈ left.names.map Prod.fst then binary op (left.renameFirst old new quoted) right
    else binary op left (right.renameFirst old new quoted)
  | t => t

variable {old new : String} {quoted : Bool} {t : Tree} {ls : List Lexeme}

/-- A name occurs in a tree iff one of its tokens is an operand of that name. -/
theorem mentions_iff (h : t.inOrder = some ls) : Mentions t old ↔ ∃ l ∈ ls, l.isNamed old := by
  rw [Mentions, names_of_inOrder h]
  simp only [List.map_filterMap, List.mem_filterMap]
  refine exists_congr fun l => and_congr_right fun _ => ?_
  cases l <;> simp [Lexeme.field?, Lexeme.isNamed]

section Exchange

variable {α : Type} {f : α → Option α} {as bs : List α}

theorem replaceF_append_of_none (h : ∀ a ∈ as, f a = none) :
    (as ++ bs).replaceF f = as ++ bs.replaceF f := by
  induction as with
  | nil => rfl
  | cons a as ih =>
    rw [List.cons_append, List.replaceF_cons_of_none _ (h a (by simp)),
      ih fun b hb => h b (by simp [hb]), List.cons_append]

theorem replaceF_append_of_some (h : ∃ a ∈ as, f a ≠ none) :
    (as ++ bs).replaceF f = as.replaceF f ++ bs := by
  induction as with
  | nil => simp at h
  | cons a as ih =>
    rcases ha : f a with _ | b
    · obtain ⟨a', ha', hne⟩ := h
      rcases List.mem_cons.mp ha' with rfl | ha'
      · exact absurd ha hne
      · rw [List.cons_append, List.replaceF_cons_of_none _ ha, List.replaceF_cons_of_none _ ha,
          ih ⟨a', ha', hne⟩, List.cons_append]
    · rw [List.cons_append, List.replaceF_cons_of_some _ ha, List.replaceF_cons_of_some _ ha,
        List.cons_append]

end Exchange

/-- Exchanges an operand of the old name for one of the new name. -/
def exchange (old new : String) (quoted : Bool) (l : Lexeme) : Option Lexeme :=
  if l.isNamed old then some (.ofName new quoted) else none

theorem exchange_ne_none_iff {l : Lexeme} : exchange old new quoted l ≠ none ↔ l.isNamed old := by
  simp [exchange]

theorem exchange_eq_none_iff {l : Lexeme} : exchange old new quoted l = none ↔ l.isNamed old = false := by
  simp [exchange]

/-- **The first operand of the name is exchanged**, and no other token. -/
theorem inOrder_renameFirst : ∀ {t : Tree} {ls : List Lexeme}, t.inOrder = some ls →
    (t.renameFirst old new quoted).inOrder = some (ls.replaceF (exchange old new quoted))
  | literal a, ls, h => by
    obtain rfl : [Lexeme.number a] = ls := Option.some.inj h
    rfl
  | name text q, ls, h => by
    obtain rfl : [Lexeme.ofName text q] = ls := Option.some.inj h
    by_cases ht : text = old
    · have hs : exchange old new quoted (.ofName text q) = some (.ofName new quoted) :=
        if_pos (by simp [Lexeme.isNamed_ofName, ht])
      rw [renameFirst, if_pos ht, List.replaceF_cons_of_some _ hs]
      rfl
    · have hn : (Lexeme.ofName text q).isNamed old = false := by simp [Lexeme.isNamed_ofName, ht]
      rw [renameFirst, if_neg ht, List.replaceF_cons_of_none _ (exchange_eq_none_iff.mpr hn)]
      rfl
  | binary op left right, ls, h => by
    obtain ⟨ll, l, lr, hl, ho, hr, rfl⟩ := inOrder_binary h
    have hop : l.isNamed old = false :=
      Lexeme.isNamed_operator (Lexeme.isOperator_of_ofOperator? ho)
    rw [renameFirst]
    split
    · rename_i hm
      obtain ⟨l', hl', hn⟩ := (mentions_iff hl).mp hm
      have hsome : ∃ a ∈ ll, exchange old new quoted a ≠ none := ⟨l', hl', exchange_ne_none_iff.mpr hn⟩
      rw [replaceF_append_of_some hsome, inOrder, inOrder_renameFirst hl, ho, hr]
      rfl
    · rename_i hm
      have hnone : ∀ a ∈ ll, exchange old new quoted a = none := fun a ha =>
        exchange_eq_none_iff.mpr (by simpa using fun hn => hm ((mentions_iff hl).mpr ⟨a, ha, hn⟩))
      rw [replaceF_append_of_none hnone, List.replaceF_cons_of_none _ (exchange_eq_none_iff.mpr hop),
        inOrder, inOrder_renameFirst hr, hl, ho]
      rfl
  | hole, ls, h => by cases h

/-! ### The shape stays -/

theorem isLeaf_renameFirst : (t.renameFirst old new quoted).isLeaf = t.isLeaf := by
  cases t with
  | name text q => by_cases h : text = old <;> simp [renameFirst, isLeaf, h]
  | binary op left right => rw [renameFirst]; split <;> rfl
  | _ => rfl

theorem isProduct_renameFirst : (t.renameFirst old new quoted).isProduct = t.isProduct := by
  cases t with
  | name text q => by_cases h : text = old <;> simp [renameFirst, isProduct, h]
  | binary op left right => rw [renameFirst]; split <;> cases op <;> rfl
  | _ => rfl

theorem hasSum_renameFirst : (t.renameFirst old new quoted).hasSum = t.hasSum := by
  induction t with
  | name text q => by_cases h : text = old <;> simp [renameFirst, hasSum, h]
  | binary op left right ihl ihr => rw [renameFirst]; split <;> cases op <;> simp [hasSum, ihl, ihr]
  | _ => rfl

/-- **Products and sums stand as they stood.** -/
theorem grouped_renameFirst : (t.renameFirst old new quoted).grouped = t.grouped := by
  induction t with
  | name text q => by_cases h : text = old <;> simp [renameFirst, grouped, h]
  | binary op left right ihl ihr =>
    rw [renameFirst]
    split <;> cases op <;> simp [grouped, hasSum_renameFirst, isLeaf_renameFirst,
      isProduct_renameFirst, ihl, ihr]
  | _ => rfl

end Tree

end RowPipeline
