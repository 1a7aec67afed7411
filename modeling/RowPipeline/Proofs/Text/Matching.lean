import RowPipeline.Text.Pattern
import Mathlib.Tactic.Common

/-!
# What patterns match

`Matches p before cs after` says that `p` describes the text `cs` where it stands behind the character `before`
and in front of the text `after`; the places matter to anchors only. It is defined from the form of the pattern
and knows nothing of derivatives. The derivative of a pattern matches what the pattern matches behind a
character (`matches_derive`), so the search of a text finds a part that matches, wherever there is one
(`search_iff`).
-/

namespace RowPipeline.Text.Pattern

/-- A text in pieces, none of them empty, each of which is in `R` at its place. -/
inductive Repeated (R : Option Char → List Char → List Char → Prop) :
    Option Char → List Char → List Char → Prop
  | done (before : Option Char) (after : List Char) : Repeated R before [] after
  | more {before : Option Char} {c : Char} {cs ds after : List Char} :
      R before (c :: cs) (ds ++ after) → Repeated R (lastOr before (c :: cs)) ds after →
        Repeated R before (c :: (cs ++ ds)) after

/-- Whether a pattern describes a text between the character `before` and the text `after`. -/
def Matches : Pattern → Option Char → List Char → List Char → Prop
  | nothing, _, _, _ => False
  | empty, _, cs, _ => cs = []
  | one set, _, cs, _ => ∃ c, set.contains c = true ∧ cs = [c]
  | anchor condition, before, cs, after => condition.holds before after = true ∧ cs = []
  | seq p q, before, cs, after =>
    ∃ front rest, cs = front ++ rest ∧ p.Matches before front (rest ++ after) ∧
      q.Matches (lastOr before front) rest after
  | alt p q, before, cs, after => p.Matches before cs after ∨ q.Matches before cs after
  | many p, before, cs, after => Repeated p.Matches before cs after

variable {p q : Pattern} {before : Option Char} {c : Char} {cs after : List Char}

theorem lastOr_cons : lastOr before (c :: cs) = lastOr (some c) cs := by
  rw [lastOr, lastOr, List.getLast?_cons]
  cases cs.getLast? <;> rfl

/-! ### Simplified patterns -/

theorem matches_empty_seq : (seq empty q).Matches before cs after ↔ q.Matches before cs after := by
  constructor
  · rintro ⟨front, rest, rfl, rfl, hq⟩
    exact hq
  · intro hq
    exact ⟨[], cs, rfl, rfl, hq⟩

theorem matches_seq_empty : (seq p empty).Matches before cs after ↔ p.Matches before cs after := by
  constructor
  · rintro ⟨front, rest, rfl, hp, rfl⟩
    simpa using hp
  · intro hp
    exact ⟨cs, [], by simp, by simpa using hp, rfl⟩

theorem matches_andThen : (p.andThen q).Matches before cs after ↔ (seq p q).Matches before cs after := by
  unfold andThen
  split
  · simp [Matches]
  · exact matches_empty_seq.symm
  · simp [Matches]
  · exact matches_seq_empty.symm
  · exact Iff.rfl

theorem matches_orElse : (p.orElse q).Matches before cs after ↔
    p.Matches before cs after ∨ q.Matches before cs after := by
  unfold orElse
  split
  · simp [Matches]
  · simp [Matches]
  · split
    · next h => rw [h, or_self]
    · exact Iff.rfl

/-! ### Derivatives -/

theorem nullable_iff : p.nullable before after = true ↔ p.Matches before [] after := by
  induction p generalizing before after with
  | nothing => simp [nullable, Matches]
  | empty => simp [nullable, Matches]
  | one set => simp [nullable, Matches]
  | anchor condition => simp [nullable, Matches]
  | seq p q ihp ihq =>
    rw [nullable, Bool.and_eq_true, ihp, ihq]
    constructor
    · rintro ⟨hp, hq⟩
      exact ⟨[], [], rfl, hp, hq⟩
    · rintro ⟨front, rest, h, hp, hq⟩
      obtain ⟨rfl, rfl⟩ := List.append_eq_nil_iff.mp h.symm
      exact ⟨hp, hq⟩
  | alt p q ihp ihq => rw [nullable, Bool.or_eq_true, ihp, ihq, Matches]
  | many p ih =>
    have hdone : (many p).Matches before [] after := Repeated.done before after
    simp [nullable, hdone]

/-- A sequence takes a character with its first part, or its first part is empty there and its second part takes
the character. -/
theorem matches_seq_cons : (seq p q).Matches before (c :: cs) after ↔
    (∃ front rest, cs = front ++ rest ∧ p.Matches before (c :: front) (rest ++ after) ∧
        q.Matches (lastOr (some c) front) rest after) ∨
      p.Matches before [] (c :: (cs ++ after)) ∧ q.Matches before (c :: cs) after := by
  constructor
  · rintro ⟨front, rest, h, hp, hq⟩
    cases front with
    | nil =>
      obtain rfl : c :: cs = rest := h
      exact Or.inr ⟨hp, hq⟩
    | cons d front =>
      obtain ⟨rfl, rfl⟩ := List.cons.inj h
      rw [lastOr_cons] at hq
      exact Or.inl ⟨front, rest, rfl, hp, hq⟩
  · rintro (⟨front, rest, rfl, hp, hq⟩ | ⟨hp, hq⟩)
    · exact ⟨c :: front, rest, rfl, hp, lastOr_cons ▸ hq⟩
    · exact ⟨[], c :: cs, rfl, hp, hq⟩

theorem matches_many_cons : (many p).Matches before (c :: cs) after ↔
    ∃ front rest, cs = front ++ rest ∧ p.Matches before (c :: front) (rest ++ after) ∧
      (many p).Matches (lastOr (some c) front) rest after := by
  constructor
  · rintro (_ | ⟨hp, hrest⟩)
    rw [lastOr_cons] at hrest
    exact ⟨_, _, rfl, hp, hrest⟩
  · rintro ⟨front, rest, rfl, hp, hrest⟩
    exact Repeated.more hp (lastOr_cons ▸ hrest)

/-- **What is left of a pattern** behind a character matches the texts that the pattern matches with the
character in front. -/
theorem matches_derive : (p.derive before c (cs ++ after)).Matches (some c) cs after ↔
    p.Matches before (c :: cs) after := by
  induction p generalizing cs after with
  | nothing => simp [derive, Matches]
  | empty => simp [derive, Matches]
  | one set =>
    by_cases hc : set.contains c = true
    · simp [derive, hc, Matches]
    · simp only [derive, hc, Matches]
      constructor
      · intro h
        exact h.elim
      · rintro ⟨d, hd, h⟩
        obtain ⟨rfl, -⟩ := List.cons.inj h
        exact hc hd
  | anchor condition => simp [derive, Matches]
  | seq p q ihp ihq =>
    -- The first part takes the character, or it is empty in front of it and the second part does.
    have hfirst : ((p.derive before c (cs ++ after)).andThen q).Matches (some c) cs after ↔
        ∃ front rest, cs = front ++ rest ∧ p.Matches before (c :: front) (rest ++ after) ∧
          q.Matches (lastOr (some c) front) rest after := by
      rw [matches_andThen]
      constructor
      · rintro ⟨front, rest, rfl, hp, hq⟩
        rw [List.append_assoc, ihp] at hp
        exact ⟨front, rest, rfl, hp, hq⟩
      · rintro ⟨front, rest, rfl, hp, hq⟩
        rw [← ihp, ← List.append_assoc] at hp
        exact ⟨front, rest, rfl, hp, hq⟩
    rw [matches_seq_cons, ← hfirst, ← nullable_iff, derive]
    by_cases hn : p.nullable before (c :: (cs ++ after)) = true
    · simp only [hn, if_true, matches_orElse, ihq, true_and]
    · simp only [hn, Bool.false_eq_true, if_false, false_and, or_false]
  | alt p q ihp ihq => rw [derive, matches_orElse, ihp, ihq, Matches]
  | many p ih =>
    rw [derive, matches_andThen, matches_many_cons]
    constructor
    · rintro ⟨front, rest, rfl, hp, hrest⟩
      rw [List.append_assoc, ih] at hp
      exact ⟨front, rest, rfl, hp, hrest⟩
    · rintro ⟨front, rest, rfl, hp, hrest⟩
      rw [← ih, ← List.append_assoc] at hp
      exact ⟨front, rest, rfl, hp, hrest⟩

/-! ### Search -/

theorem matchesAt_iff : p.matchesAt before cs = true ↔
    ∃ front rest, cs = front ++ rest ∧ p.Matches before front rest := by
  induction cs generalizing p before with
  | nil =>
    rw [matchesAt, nullable_iff]
    constructor
    · intro h
      exact ⟨[], [], rfl, h⟩
    · rintro ⟨front, rest, h, hp⟩
      obtain ⟨rfl, rfl⟩ := List.append_eq_nil_iff.mp h.symm
      exact hp
  | cons c cs ih =>
    rw [matchesAt, Bool.or_eq_true, nullable_iff, ih]
    constructor
    · rintro (h | ⟨front, rest, rfl, hp⟩)
      · exact ⟨[], c :: cs, rfl, h⟩
      · exact ⟨c :: front, rest, rfl, matches_derive.mp hp⟩
    · rintro ⟨front, rest, h, hp⟩
      cases front with
      | nil =>
        obtain rfl : c :: cs = rest := h
        exact Or.inl hp
      | cons d front =>
        obtain ⟨rfl, rfl⟩ := List.cons.inj h
        exact Or.inr ⟨front, rest, rfl, matches_derive.mpr hp⟩

/-- **A search succeeds** iff the pattern matches some part of the text at its place. -/
theorem search_iff {s : String} : p.search s = true ↔
    ∃ front cs rest, s.toList = front ++ (cs ++ rest) ∧ p.Matches front.getLast? cs rest := by
  rw [search_eq_true_iff]
  constructor
  · rintro ⟨front, rest, hs, hat⟩
    obtain ⟨cs, rest, rfl, hp⟩ := matchesAt_iff.mp hat
    exact ⟨front, cs, rest, hs, hp⟩
  · rintro ⟨front, cs, rest, hs, hp⟩
    exact ⟨front, cs ++ rest, hs, matchesAt_iff.mpr ⟨cs, rest, rfl, hp⟩⟩

/-! ### Sequences of classes -/

theorem contains_single {d : Char} : (CharSet.single d).contains c = true ↔ c = d := by
  have hrange : (CharSet.single d).contains c = true ↔ d ≤ c ∧ c ≤ d := by
    simp [CharSet.single, CharSet.contains, CharClass.contains]
  rw [hrange]
  constructor
  · rintro ⟨hle, hge⟩
    exact Char.le_antisymm hge hle
  · rintro rfl
    exact ⟨Char.le_refl c, Char.le_refl c⟩

theorem matches_seq_one {set : CharSet} : (seq p (one set)).Matches before cs after ↔
    ∃ front c, cs = front ++ [c] ∧ p.Matches before front (c :: after) ∧ set.contains c = true := by
  constructor
  · rintro ⟨front, rest, rfl, hp, c, hc, rfl⟩
    exact ⟨front, c, rfl, hp, hc⟩
  · rintro ⟨front, c, rfl, hp, hc⟩
    exact ⟨front, [c], rfl, hp, c, hc, rfl⟩

theorem matches_seq_anchor {condition : Anchor} : (seq p (anchor condition)).Matches before cs after ↔
    p.Matches before cs after ∧ condition.holds (lastOr before cs) after = true := by
  constructor
  · rintro ⟨front, rest, rfl, hp, hholds, rfl⟩
    rw [List.append_nil]
    exact ⟨hp, hholds⟩
  · rintro ⟨hp, hholds⟩
    exact ⟨cs, [], (List.append_nil cs).symm, hp, hholds, rfl⟩

/-- A repeated class matches the texts of its characters. -/
theorem matches_many_one {set : CharSet} :
    (many (one set)).Matches before cs after ↔ ∀ c ∈ cs, set.contains c = true := by
  induction cs generalizing before with
  | nil => simp [← nullable_iff, nullable]
  | cons c cs ih =>
    rw [matches_many_cons, List.forall_mem_cons]
    constructor
    · rintro ⟨front, rest, rfl, ⟨d, hd, hone⟩, hrest⟩
      obtain ⟨rfl, rfl⟩ := List.cons.inj hone
      exact ⟨hd, ih.mp hrest⟩
    · rintro ⟨hc, hcs⟩
      exact ⟨[], cs, rfl, ⟨c, hc, rfl⟩, ih.mpr hcs⟩

theorem matches_seq_many_one {set : CharSet} : (seq p (many (one set))).Matches before cs after ↔
    ∃ front rest, cs = front ++ rest ∧ p.Matches before front (rest ++ after) ∧
      ∀ c ∈ rest, set.contains c = true := by
  rw [Matches]
  simp only [matches_many_one]

end RowPipeline.Text.Pattern
