import RowPipeline.Proofs.Expression.Catalogue
import RowPipeline.Proofs.Expression.Renaming

/-!
# Trees that differ in their names

Two trees are alike if they are the same but for the names in them (`Tree.Alike`); a tree and the tree with
an operand renamed are alike (`Tree.alike_renameFirst`). Once every name has its number, alike trees are the
same tree (`Tree.Alike.fill_eq`). So if their operands have the same numbers, or fail alike, both come to
the same value or fail with errors of one class (`evaluateWith_alike`). The wording may differ: a divisor
that is zero is reported before the operands behind it are resolved, and then names stand in the text of the
report.
-/

namespace RowPipeline

/-! ### Outcomes up to wording -/

/-- The same failure, or two failures of one kind of the catalogue. -/
def Failure.SameClass (f g : Failure) : Prop := f = g ∨ ∃ kind, f.kind? = some kind ∧ g.kind? = some kind

/-- The same value, or two failures of one class. -/
inductive AgreeInClass {α : Type} : Except Failure α → Except Failure α → Prop
  | ok (a : α) : AgreeInClass (.ok a) (.ok a)
  | error {f g : Failure} (h : f.SameClass g) : AgreeInClass (.error f) (.error g)

namespace AgreeInClass

variable {α β : Type} {x y : Except Failure α} {f g : α → Except Failure β}

theorem refl : ∀ x : Except Failure α, AgreeInClass x x
  | .ok a => .ok a
  | .error _ => .error (Or.inl rfl)

/-- Steps that agree, one after the other. -/
theorem bind (h : AgreeInClass x y) (hf : ∀ a, x = .ok a → AgreeInClass (f a) (g a)) :
    AgreeInClass (x.bind f) (y.bind g) := by
  cases h with
  | ok a => exact hf a rfl
  | error h => exact .error h

end AgreeInClass

namespace Tree

/-! ### Alike trees -/

/-- The same tree but for its names. -/
inductive Alike : Tree → Tree → Prop
  | literal (a : Number) : Alike (literal a) (literal a)
  | name (text text' : String) (quoted quoted' : Bool) : Alike (name text quoted) (name text' quoted')
  | binary (op : Operator) {left left' right right' : Tree} (hl : Alike left left')
      (hr : Alike right right') : Alike (binary op left right) (binary op left' right')
  | hole : Alike hole hole

variable {t t' : Tree} {old new : String} {quoted : Bool}

theorem Alike.refl : ∀ t : Tree, Alike t t
  | .literal a => .literal a
  | .name text quoted => .name text text quoted quoted
  | .binary op left right => .binary op (refl left) (refl right)
  | .hole => .hole

theorem Alike.symm (h : Alike t t') : Alike t' t := by
  induction h with
  | literal a => exact .literal a
  | name text text' quoted quoted' => exact .name text' text quoted' quoted
  | binary op _ _ ihl ihr => exact .binary op ihl ihr
  | hole => exact .hole

theorem alike_renameFirst (old new : String) (quoted : Bool) :
    ∀ t : Tree, Alike t (t.renameFirst old new quoted)
  | .literal a => .literal a
  | .name text q => by
    rw [renameFirst]
    split
    · exact .name text new q quoted
    · exact Alike.refl _
  | .binary op left right => by
    rw [renameFirst]
    split
    · exact .binary op (alike_renameFirst old new quoted left) (Alike.refl right)
    · exact .binary op (Alike.refl left) (alike_renameFirst old new quoted right)
  | .hole => .hole

namespace Alike

/-- The same numbers in the place of the names. -/
theorem fill (h : Alike t t') : ∀ values : List Number,
    Alike (t.fill values).1 (t'.fill values).1 ∧ (t.fill values).2 = (t'.fill values).2 := by
  induction h with
  | literal a => exact fun values => ⟨.literal a, rfl⟩
  | name text text' quoted quoted' =>
    intro values
    cases values with
    | nil => exact ⟨.name text text' quoted quoted', rfl⟩
    | cons a values => exact ⟨.literal a, rfl⟩
  | binary op _ _ ihl ihr =>
    intro values
    obtain ⟨hleft, hrest⟩ := ihl values
    obtain ⟨hright, hrest'⟩ := ihr (Tree.fill _ values).2
    simp only [Tree.fill, ← hrest]
    exact ⟨.binary op hleft hright, hrest'⟩
  | hole => exact fun values => ⟨.hole, rfl⟩

/-- Alike trees without names are the same. -/
theorem eq_of_names_nil (h : Alike t t') (hn : t.names = []) : t = t' := by
  induction h with
  | literal a => rfl
  | name text text' quoted quoted' => cases hn
  | binary op _ _ ihl ihr =>
    obtain ⟨hl, hr⟩ := List.append_eq_nil_iff.mp hn
    rw [ihl hl, ihr hr]
  | hole => rfl

/-- **Alike trees with a number for every name are the same.** -/
theorem fill_eq (h : Alike t t') {values : List Number} (hlength : t.names.length ≤ values.length) :
    (t.fill values).1 = (t'.fill values).1 :=
  (h.fill values).1.eq_of_names_nil (names_fill_eq_nil hlength)

/-- Of alike trees both can be written, or none can, for the same reason. -/
theorem renderBare (h : Alike t t') :
    (∃ s s', t.renderBare = .ok s ∧ t'.renderBare = .ok s') ∨
      ∃ failure, t.renderBare = .error failure ∧ t'.renderBare = .error failure := by
  induction h with
  | literal a =>
    cases ha : (Tree.literal a).renderBare with
    | ok s => exact Or.inl ⟨s, s, rfl, rfl⟩
    | error failure => exact Or.inr ⟨failure, rfl, rfl⟩
  | name text text' quoted quoted' => exact Or.inl ⟨text, text', rfl, rfl⟩
  | @binary op left left' right right' _ _ ihl ihr =>
    have hbinary : ∀ l r : Tree, (Tree.binary op l r).renderBare =
        l.renderBare.bind fun s => r.renderBare.bind fun s' => .ok (s ++ op.symbol ++ s') :=
      fun _ _ => rfl
    rw [hbinary, hbinary]
    rcases ihl with ⟨s, s', hs, hs'⟩ | ⟨failure, hs, hs'⟩
    · rcases ihr with ⟨u, u', hu, hu'⟩ | ⟨failure, hu, hu'⟩
      · exact Or.inl ⟨_, _, by rw [hs, hu]; rfl, by rw [hs', hu']; rfl⟩
      · exact Or.inr ⟨failure, by rw [hs, hu]; rfl, by rw [hs', hu']; rfl⟩
    · exact Or.inr ⟨failure, by rw [hs]; rfl, by rw [hs']; rfl⟩
  | hole => exact Or.inr ⟨.wrongType, rfl, rfl⟩

end Alike

/-! ### The operands of a renamed tree -/

/-- An operand of the old name with the new one. -/
def renameOperand? (old new : String) (op : String × Bool) : Option (String × Bool) :=
  if op.1 = old then some (new, op.2) else none

/-- **The first operand of the name is renamed**, and no other one. -/
theorem operandsAfter_renameFirst (divisor : Bool) (t : Tree) :
    (t.renameFirst old new quoted).operandsAfter divisor =
      (t.operandsAfter divisor).replaceF (renameOperand? old new) := by
  induction t generalizing divisor with
  | literal a => rfl
  | name text q =>
    by_cases h : text = old
    · simp [renameFirst, operandsAfter, renameOperand?, h]
    · simp [renameFirst, operandsAfter, renameOperand?, h]
  | binary op left right ihl ihr =>
    have hmem : old ∈ left.names.map Prod.fst ↔ ∃ operand ∈ left.operandsAfter false, operand.1 = old := by
      rw [← Expression.map_fst_operandsAfter false, List.mem_map]
    rw [renameFirst]
    split
    · rename_i hm
      obtain ⟨operand, hoperand, ho⟩ := hmem.mp hm
      have hsome : renameOperand? old new operand ≠ none := by simp [renameOperand?, ho]
      rw [operandsAfter, operandsAfter, ihl, replaceF_append_of_some ⟨operand, hoperand, hsome⟩]
    · rename_i hm
      have hnone : ∀ operand ∈ left.operandsAfter false, renameOperand? old new operand = none :=
        fun operand hoperand => if_neg fun ho => hm (hmem.mpr ⟨operand, hoperand, ho⟩)
      rw [operandsAfter, operandsAfter, ihr, replaceF_append_of_none hnone]
  | hole => rfl

end Tree

namespace Expression

variable {context context' : Record} {allow : List Key} {field : Key} {s s' : String} {tree tree' : Tree}

/-! ### Operands that agree -/

/-- Two operands stand in the same place and have the same outcome. -/
def SameOperand (f g : String → Traced Number) (op op' : String × Bool) : Prop :=
  op.2 = op'.2 ∧ (f op.1).outcome = (g op'.1).outcome

/-- Operands that agree one by one are resolved alike. -/
theorem resolveOperands_alike {f g : String → Traced Number} {ops ops' : List (String × Bool)}
    (ht : tree.Alike tree') (h : List.Forall₂ (SameOperand f g) ops ops') (done : List Number) :
    AgreeInClass (resolveOperands f tree done ops).outcome
      (resolveOperands g tree' done ops').outcome := by
  induction h generalizing done with
  | nil => exact .refl _
  | @cons op op' ops ops' hop _ ih =>
    obtain ⟨name, divisor⟩ := op
    obtain ⟨name', divisor'⟩ := op'
    obtain ⟨rfl, houtcome⟩ := hop
    dsimp only at houtcome
    simp only [resolveOperands, Traced.outcome_bind, houtcome]
    refine .bind (.refl _) fun a _ => ?_
    split
    · rw [Traced.outcome_bind, Traced.outcome_bind, Traced.outcome_monadLift, Traced.outcome_monadLift]
      rcases (ht.fill (done ++ [a])).1.renderBare with ⟨source, source', hs, hs'⟩ | ⟨failure, hs, hs'⟩
      · rw [hs, hs']
        exact .error (Or.inr ⟨.divisionByZero, rfl, rfl⟩)
      · rw [hs, hs']
        exact .error (Or.inl rfl)
    · exact ih _

/-- **Texts with alike trees have the same value, or fail with errors of one class**, if their operands
agree. -/
theorem evaluateWith_alike {resolve resolve' : String → String → Traced Number}
    (hr : ReadsAs field s tree) (hr' : ReadsAs field s' tree') (ha : allows allow field)
    (ht : tree.Alike tree')
    (h : List.Forall₂ (SameOperand (resolve s) (resolve' s')) tree.operands tree'.operands) :
    AgreeInClass (evaluateWith resolve context allow field (.text s)).outcome
      (evaluateWith resolve' context' allow field (.text s')).outcome := by
  rw [evaluateWith_of_tree hr ha, evaluateWith_of_tree hr' ha, Traced.outcome_bind,
    Traced.outcome_bind]
  refine .bind (resolveOperands_alike ht h []) fun values hvalues => ?_
  obtain ⟨_, hgiven, rfl⟩ := resolveOperands_ok_iff.mp hvalues
  have hlength : tree.names.length ≤ values.length := by
    rw [← length_operands, hgiven.length_eq]
  rw [Traced.outcome_map, Traced.outcome_map, finish_outcome, finish_outcome, ht.fill_eq hlength]
  exact .refl _

end Expression

end RowPipeline
