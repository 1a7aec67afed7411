import RowPipeline.Double
import Mathlib.Algebra.Order.Field.Power
import Mathlib.Data.Nat.Log
import Mathlib.Tactic.Ring
import Mathlib.Tactic.Positivity

/-!
# The range of the doubles

A quotient of whole numbers rounds to a finite double iff it is below `limit`, which lies half a step above
the largest double (`isFinite_ofRatio`). A tie goes up there, so the limit itself is out of range.

Rounding counts the quotient in steps of a power of two (`Below`). The exponent that it takes leaves fewer
than `2 ^ 53` steps, and fewer than `2 ^ 52` only if it is the least one (`exponentFor_spec`). At the largest
exponent the quotient rounds to `2 ^ 53` steps iff it is not below the limit (`nearestMultiple_eq_full_iff`).
-/

namespace RowPipeline.Double

/-- The least number that is too large for a double. -/
def limit : Nat := (2 ^ 54 - 1) * 2 ^ 970

variable {num den k : Nat} {e e' : Int}

/-- The quotient `num / den` is below `k` steps of `2 ^ e`. -/
def Below (num den k : Nat) (e : Int) : Prop := (num : ℚ) < k * den * 2 ^ e

/-- A quotient of whole numbers that is the one of `num / den` and a power of two. -/
def scaled (num den : Nat) (e : Int) : Nat × Nat :=
  if 0 ≤ e then (num, den * Nat.pow 2 e.toNat) else (num * Nat.pow 2 (-e).toNat, den)

theorem nearestMultiple_eq : nearestMultiple num den e =
    nearest (scaled num den e).1 (scaled num den e).2 := by
  unfold nearestMultiple scaled
  split <;> rfl

theorem scaled_lt_iff : (scaled num den e).1 < k * (scaled num den e).2 ↔ Below num den k e := by
  unfold scaled Below
  split
  · rename_i he
    obtain ⟨n, rfl⟩ := Int.eq_ofNat_of_zero_le he
    have hpow : Nat.pow 2 (Int.toNat n) = 2 ^ n := rfl
    rw [hpow, ← Nat.mul_assoc, ← Nat.cast_lt (α := ℚ)]
    push_cast
    rw [zpow_natCast]
  · rename_i he
    obtain ⟨n, hn⟩ := Int.eq_ofNat_of_zero_le (Int.le_of_lt (Int.neg_pos_of_neg (not_le.mp he)))
    obtain rfl : e = -(n : Int) := by omega
    have hpow : Nat.pow 2 (Int.toNat (- -(n : Int))) = 2 ^ n := by
      rw [neg_neg]
      rfl
    have hpos : (0 : ℚ) < 2 ^ n := by positivity
    rw [hpow, ← Nat.cast_lt (α := ℚ), zpow_neg, zpow_natCast, ← div_eq_mul_inv, lt_div_iff₀ hpos]
    push_cast
    rfl

theorem belowPower_iff : belowPower num den e ↔ Below num den 1 e := by
  rw [← scaled_lt_iff, one_mul]
  unfold belowPower scaled
  split <;> simp

/-! ### Steps of other sizes -/

theorem Below.mono (h : Below num den k e) (he : e ≤ e') : Below num den k e' := by
  refine lt_of_lt_of_le h (mul_le_mul_of_nonneg_left ?_ (by positivity))
  exact zpow_le_zpow_right₀ (by norm_num) he

theorem Below.mono_left {k' : Nat} (h : Below num den k e) (hk : k ≤ k') : Below num den k' e := by
  have hcast : (k : ℚ) ≤ k' := by exact_mod_cast hk
  refine lt_of_lt_of_le h (mul_le_mul_of_nonneg_right ?_ (by positivity))
  exact mul_le_mul_of_nonneg_right hcast (by positivity)

/-- Steps that are twice as large, so many times over, are fewer. -/
theorem below_shift (n : Nat) : Below num den (k * 2 ^ n) e ↔ Below num den k (e + n) := by
  have hsize : ((k * 2 ^ n : Nat) : ℚ) * den * 2 ^ e = k * den * 2 ^ (e + n) := by
    rw [zpow_add₀ (by norm_num), zpow_natCast]
    push_cast
    ring
  rw [Below, hsize, Below]

/-- Whole steps are compared as whole numbers. -/
theorem below_natCast (n : Nat) : Below num den k n ↔ num < k * den * 2 ^ n := by
  rw [Below, zpow_natCast, ← Nat.cast_lt (α := ℚ)]
  push_cast
  rfl

/-! ### Rounding to whole steps -/

section Nearest

variable {n d : Nat}

theorem nearest_cases (n d : Nat) : nearest n d = n / d ∨ nearest n d = n / d + 1 := by
  unfold nearest
  simp only
  split_ifs <;> simp

theorem nearest_le (hd : 0 < d) (h : n < k * d) : nearest n d ≤ k := by
  have hfloor : n / d < k := (Nat.div_lt_iff_lt_mul hd).mpr h
  rcases nearest_cases n d with hn | hn <;> omega

theorem le_nearest (hd : 0 < d) (h : k * d ≤ n) : k ≤ nearest n d := by
  have hfloor : k ≤ n / d := (Nat.le_div_iff_mul_le hd).mpr h
  rcases nearest_cases n d with hn | hn <;> omega

/-- A quotient below an even number of steps rounds to it iff no more than half a step is missing. -/
theorem nearest_eq_even_iff (hd : 0 < d) (hk : 0 < k) (h : n < 2 * k * d) :
    nearest n d = 2 * k ↔ 4 * k * d ≤ 2 * n + d := by
  have hfloor : n / d < 2 * k := (Nat.div_lt_iff_lt_mul hd).mpr h
  have hparts : d * (n / d) + n % d = n := Nat.div_add_mod n d
  have hrest : n % d < d := Nat.mod_lt n hd
  by_cases hlast : n / d = 2 * k - 1
  · have hfour : 4 * k * d = 2 * (d * (n / d)) + 2 * d := by
      obtain ⟨j, rfl⟩ := Nat.exists_eq_succ_of_ne_zero (Nat.pos_iff_ne_zero.mp hk)
      have hj : 2 * (j + 1) - 1 = 2 * j + 1 := by omega
      rw [hlast, Nat.succ_eq_add_one, hj]
      ring
    unfold nearest
    simp only
    split_ifs <;> omega
  · -- the floor is at least two below, and nothing rounds so far
    have hfar : n / d + 2 ≤ 2 * k := by omega
    have hne : nearest n d ≠ 2 * k := by
      rcases nearest_cases n d with hn | hn <;> omega
    have hlow : d * (n / d) + 2 * d ≤ 2 * k * d := by
      calc d * (n / d) + 2 * d = (n / d + 2) * d := by ring
        _ ≤ 2 * k * d := Nat.mul_le_mul_right d hfar
    have hfour : 4 * k * d = 2 * (2 * k * d) := by ring
    refine iff_of_false hne ?_
    omega

end Nearest

/-! ### The exponent -/

/-- A quotient lies between powers of two next to the one that its logarithms give. -/
theorem below_log2 (hn : 0 < num) (hd : 0 < den) :
    Below num den 1 ((Nat.log2 num : Int) - Nat.log2 den + 1) ∧
      ¬ Below num den 1 ((Nat.log2 num : Int) - Nat.log2 den - 1) := by
  have htwo : (2 : ℚ) ≠ 0 := by norm_num
  have hnum : (2 : ℚ) ^ Nat.log2 num ≤ num ∧ (num : ℚ) < 2 ^ (Nat.log2 num + 1) := by
    constructor
    · exact_mod_cast Nat.log2_self_le hn.ne'
    · exact_mod_cast Nat.lt_log2_self
  have hden : (2 : ℚ) ^ Nat.log2 den ≤ den ∧ (den : ℚ) < 2 ^ (Nat.log2 den + 1) := by
    constructor
    · exact_mod_cast Nat.log2_self_le hd.ne'
    · exact_mod_cast Nat.lt_log2_self
  constructor
  · have hpow : (2 : ℚ) ^ ((Nat.log2 num : Int) - Nat.log2 den + 1) =
        2 ^ (Nat.log2 num + 1) / 2 ^ Nat.log2 den := by
      rw [← zpow_natCast, ← zpow_natCast, ← zpow_sub₀ htwo]
      congr 1
      push_cast
      ring
    rw [Below, hpow, Nat.cast_one, one_mul]
    refine lt_of_lt_of_le hnum.2 ?_
    rw [mul_div_assoc', le_div_iff₀ (by positivity), mul_comm (den : ℚ)]
    exact mul_le_mul_of_nonneg_left hden.1 (by positivity)
  · have hpow : (2 : ℚ) ^ ((Nat.log2 num : Int) - Nat.log2 den - 1) =
        2 ^ Nat.log2 num / 2 ^ (Nat.log2 den + 1) := by
      rw [← zpow_natCast, ← zpow_natCast, ← zpow_sub₀ htwo]
      congr 1
      push_cast
      ring
    rw [Below, hpow, Nat.cast_one, one_mul, not_lt]
    refine le_trans ?_ hnum.1
    rw [mul_div_assoc', div_le_iff₀ (by positivity), mul_comm (den : ℚ)]
    exact mul_le_mul_of_nonneg_left hden.2.le (by positivity)

/-- **The exponent leaves fewer than `2 ^ 53` steps**, and fewer than `2 ^ 52` only if it is the least. -/
theorem exponentFor_spec (hn : 0 < num) (hd : 0 < den) :
    Below num den (2 ^ 53) (exponentFor num den) ∧ -1074 ≤ exponentFor num den ∧
      (exponentFor num den ≠ -1074 → ¬ Below num den (2 ^ 52) (exponentFor num den)) := by
  obtain ⟨hlt, hge⟩ := below_log2 hn hd
  obtain ⟨e, he, hlow, hhigh⟩ : ∃ e, exponentFor num den = max (e - 52) (-1074) ∧
      ¬ Below num den 1 e ∧ Below num den 1 (e + 1) := by
    unfold exponentFor
    simp only
    split
    · rename_i hb
      refine ⟨_, rfl, hge, ?_⟩
      rw [Int.sub_add_cancel]
      exact belowPower_iff.mp hb
    · rename_i hb
      exact ⟨_, rfl, fun h => hb (belowPower_iff.mpr h), hlt⟩
  have hshift : ∀ (n : Nat) (e : Int), Below num den (2 ^ n) e ↔ Below num den 1 (e + n) := by
    intro n e
    rw [← below_shift, one_mul]
  refine ⟨?_, by omega, fun hne => ?_⟩
  · rw [hshift]
    exact hhigh.mono (by push_cast; omega)
  · have heq : exponentFor num den = e - 52 := by omega
    rw [hshift, heq]
    simpa using hlow

/-! ### The limit -/

theorem isFinite_ofParts (negative : Bool) (m : Nat) (e : Int) :
    (ofParts negative m e).isFinite ↔ Canonical m e := by
  unfold ofParts
  split <;> simp [isFinite, *]

/-- How many steps a rounded quotient has. -/
theorem nearestMultiple_exponentFor (hn : 0 < num) (hd : 0 < den) :
    nearestMultiple num den (exponentFor num den) ≤ 2 ^ 53 ∧
      (exponentFor num den ≠ -1074 → 2 ^ 52 ≤ nearestMultiple num den (exponentFor num den)) := by
  obtain ⟨hbelow, -, hlow⟩ := exponentFor_spec hn hd
  have hpos : 0 < (scaled num den (exponentFor num den)).2 := by
    unfold scaled
    split
    · exact Nat.mul_pos hd (Nat.pow_pos (by decide))
    · exact hd
  rw [nearestMultiple_eq]
  refine ⟨nearest_le hpos (scaled_lt_iff.mpr hbelow), fun hne => le_nearest hpos ?_⟩
  exact not_lt.mp (mt scaled_lt_iff.mp (hlow hne))

/-- A rounded quotient is finite iff its exponent is below the largest one, or is the largest one and the
steps fit. -/
theorem isFinite_ofRatio_exponent (negative : Bool) (hn : 0 < num) (hd : 0 < den) :
    (ofRatio negative num den).isFinite ↔ exponentFor num den ≤ 970 ∨
      exponentFor num den = 971 ∧ nearestMultiple num den 971 ≠ 2 ^ 53 := by
  obtain ⟨-, hmin, -⟩ := exponentFor_spec hn hd
  obtain ⟨hle, hge⟩ := nearestMultiple_exponentFor hn hd
  have hfull : Nat.pow 2 53 = 2 ^ 53 ∧ Nat.pow 2 52 = 2 ^ 52 := ⟨rfl, rfl⟩
  unfold ofRatio
  simp only [hfull]
  split
  · rename_i hm
    rw [isFinite_ofParts, Canonical, hfull.1, hfull.2]
    constructor
    · rintro ⟨-, -, hmax, -⟩
      exact Or.inl (by omega)
    · rintro (hmax | ⟨heq, hne⟩)
      · exact ⟨by decide, by omega, by omega, Or.inl le_rfl⟩
      · rw [heq] at hm
        exact absurd hm hne
  · rename_i hm
    rw [isFinite_ofParts, Canonical, hfull.1, hfull.2]
    constructor
    · rintro ⟨-, -, hmax, -⟩
      rcases Int.lt_or_eq_of_le hmax with hlt | heq
      · exact Or.inl (by omega)
      · exact Or.inr ⟨heq, heq ▸ hm⟩
    · intro h
      have hsteps : 2 ^ 52 ≤ nearestMultiple num den (exponentFor num den) ∨
          exponentFor num den = -1074 := by
        by_cases heq : exponentFor num den = -1074
        · exact Or.inr heq
        · exact Or.inl (hge heq)
      have hmax : exponentFor num den ≤ 971 := by omega
      exact ⟨lt_of_le_of_ne hle hm, hmin, hmax, hsteps⟩

/-- A quotient rounds to `2 ^ 53` steps iff it lacks no more than half a step. -/
theorem nearestMultiple_eq_full_iff (n : Nat) (hd : 0 < den) (h : Below num den (2 ^ 53) (n + 1 : Nat)) :
    nearestMultiple num den (n + 1 : Nat) = 2 ^ 53 ↔ ¬ Below num den (2 ^ 54 - 1) n := by
  have hscaled : scaled num den (n + 1 : Nat) = (num, 2 * (den * 2 ^ n)) := by
    have hpow : den * Nat.pow 2 (n + 1) = 2 * (den * 2 ^ n) := by
      rw [Nat.pow_eq, Nat.pow_succ, ← Nat.mul_assoc, Nat.mul_comm]
    rw [scaled, if_pos (Int.natCast_nonneg _), Int.toNat_natCast, hpow]
  have hpos : 0 < 2 * (den * 2 ^ n) := by positivity
  have hfew : num < 2 * 2 ^ 52 * (2 * (den * 2 ^ n)) := by
    have hlt := scaled_lt_iff.mpr h
    rwa [hscaled] at hlt
  have hround : nearest num (2 * (den * 2 ^ n)) = 2 ^ 53 ↔ _ :=
    nearest_eq_even_iff hpos (by decide) hfew
  rw [nearestMultiple_eq, hscaled, hround, below_natCast, Nat.mul_assoc (2 ^ 54 - 1), not_lt]
  generalize den * 2 ^ n = w
  omega

/-- **The range of rounding**: a quotient is finite as a double iff it is below the limit. -/
theorem isFinite_ofRatio (negative : Bool) (hn : 0 < num) (hd : 0 < den) :
    (ofRatio negative num den).isFinite ↔ num < den * limit := by
  obtain ⟨hbelow, -, hlow⟩ := exponentFor_spec hn hd
  have hlimit : num < den * limit ↔ Below num den (2 ^ 54 - 1) (970 : Nat) := by
    rw [below_natCast, limit, Nat.mul_left_comm, Nat.mul_assoc]
  rw [isFinite_ofRatio_exponent negative hn hd, hlimit]
  rcases lt_trichotomy (exponentFor num den) (970 + 1 : Nat) with hsmall | heq | hlarge
  · have hfits : Below num den (2 ^ 54 - 1) (970 : Nat) :=
      (hbelow.mono (by omega)).mono_left (by decide)
    exact iff_of_true (Or.inl (by omega)) hfits
  · rw [heq] at hbelow
    have hfull := nearestMultiple_eq_full_iff 970 hd hbelow
    constructor
    · rintro (hsmall | ⟨-, hne⟩)
      · omega
      · exact not_not.mp (mt hfull.mpr hne)
    · exact fun h => Or.inr ⟨heq, fun he => hfull.mp he h⟩
  · refine iff_of_false (by omega) fun h => hlow (by omega) ?_
    have hsteps : Below num den (2 ^ 52 * 2 ^ 2) (970 : Nat) := h.mono_left (by decide)
    exact ((below_shift 2).mp hsteps).mono (by omega)

/-- **The range of whole numbers.** -/
theorem isFinite_ofInt (n : Int) : (ofInt n).isFinite ↔ n.natAbs < limit := by
  unfold ofInt
  split
  · rename_i hn
    rw [hn]
    exact iff_of_true rfl (by decide +kernel)
  · rename_i hn
    rw [isFinite_ofRatio _ (Int.natAbs_pos.mpr hn) (by decide), Nat.one_mul]

/-- **The range of quotients of whole numbers.** -/
theorem isFinite_ofQuotient (a : Int) {b : Int} (hb : b ≠ 0) :
    (ofQuotient a b).isFinite ↔ a.natAbs < b.natAbs * limit := by
  have hpos : 0 < b.natAbs := Int.natAbs_pos.mpr hb
  unfold ofQuotient
  simp only
  split
  · rename_i ha
    rw [ha]
    exact iff_of_true rfl (Nat.mul_pos hpos (by decide +kernel))
  · rename_i ha
    exact isFinite_ofRatio _ (Int.natAbs_pos.mpr ha) hpos

end RowPipeline.Double
