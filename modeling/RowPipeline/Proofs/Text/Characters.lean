import RowPipeline.Text.Blank
import RowPipeline.Text.DecimalDigit
import Mathlib.Tactic.Common

/-!
# Classes of characters

How the classes of characters lie to each other: an ASCII digit is a decimal digit (`isDigit_ascii`),
an ASCII letter is none (`isDigit_letter`) and no blank, and below the letters the decimal digits are
the ASCII digits only (`isDigit_low`). Trimming takes characters from the ends of a text only
(`isInfix_trim`).
-/

namespace RowPipeline.Text

theorem isDigit_iff {c : Char} :
    isDigit c ↔ ∃ z ∈ digitZeros, z ≤ c.toNat ∧ c.toNat < z + 10 := by
  simp [isDigit, digit?]

/-- The digits of other scripts lie beyond ASCII. -/
theorem digitZeros_cases : ∀ z ∈ digitZeros, z = 0x30 ∨ 0x660 ≤ z := by decide

/-- Below the other scripts the decimal digits are the ASCII digits. -/
theorem isDigit_low {c : Char} (h : c.toNat < 0x660) : isDigit c ↔ 0x30 ≤ c.toNat ∧ c.toNat < 0x3A := by
  rw [isDigit_iff]
  constructor
  · rintro ⟨z, hz, h1, h2⟩
    rcases digitZeros_cases z hz with rfl | hz
    · exact ⟨h1, h2⟩
    · omega
  · rintro ⟨h1, h2⟩
    exact ⟨0x30, by decide, h1, h2⟩

theorem char_le_iff {a b : Char} : a ≤ b ↔ a.toNat ≤ b.toNat := UInt32.le_iff_toNat_le

theorem isAsciiDigit_iff {c : Char} : isAsciiDigit c ↔ 0x30 ≤ c.toNat ∧ c.toNat < 0x3A := by
  simp only [isAsciiDigit, Bool.and_eq_true, decide_eq_true_eq, char_le_iff]
  show 0x30 ≤ c.toNat ∧ c.toNat ≤ 0x39 ↔ _
  omega

theorem isAsciiLetter_iff {c : Char} : isAsciiLetter c ↔
    (0x61 ≤ c.toNat ∧ c.toNat ≤ 0x7A) ∨ (0x41 ≤ c.toNat ∧ c.toNat ≤ 0x5A) := by
  simp only [isAsciiLetter, Bool.or_eq_true, Bool.and_eq_true, decide_eq_true_eq, char_le_iff]
  rfl

theorem isDigit_ascii {c : Char} (h : isAsciiDigit c) : isDigit c := by
  rw [isAsciiDigit_iff] at h
  exact (isDigit_low (by omega)).mpr h

theorem isDigit_letter {c : Char} (h : isAsciiLetter c) : isDigit c = false := by
  rw [isAsciiLetter_iff] at h
  rw [← Bool.not_eq_true, isDigit_low (by omega)]
  omega

theorem isAsciiDigit_letter {c : Char} (h : isAsciiLetter c) : isAsciiDigit c = false := by
  rw [isAsciiLetter_iff] at h
  rw [← Bool.not_eq_true, isAsciiDigit_iff]
  omega

theorem isBlank_letter {c : Char} (h : isAsciiLetter c) : isBlank c = false := by
  rw [isAsciiLetter_iff] at h
  simp [isBlank]
  omega

/-! ### Trimming -/

theorem isBlank_of_dropWhile {c : Char} {cs rest : List Char} (h : cs.dropWhile isBlank = c :: rest) :
    isBlank c = false := by
  have := head?_trimLeft cs c
  rw [trimLeft, h] at this
  exact this rfl

theorem isPrefix_trimRight (cs : List Char) : trimRight cs <+: cs := by
  have h : cs.reverse.dropWhile isBlank <:+ cs.reverse := List.dropWhile_suffix isBlank
  rw [← List.reverse_prefix] at h
  simpa [trimRight] using h

theorem isInfix_trim (cs : List Char) : trim cs <:+: cs :=
  (isPrefix_trimRight _).isInfix.trans (List.dropWhile_suffix isBlank).isInfix

end RowPipeline.Text
