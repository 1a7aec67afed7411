import Mathlib.Data.Nat.Digits.Defs
import RowPipeline.Numeral
import RowPipeline.Proofs.Text.Characters

/-!
# The text of a whole number

The digits that a whole number is written with denote that number (`natOfDigits_toDigits`) and are few
enough to be read, so what is written is read back (`readInt?_text`). A number that is not negative is
written with digits alone (`toList_of_nonneg`), a negative one with a sign in front of them
(`toList_of_neg`).
-/

namespace RowPipeline

namespace Text

theorem isBlank_digit {c : Char} (h : isAsciiDigit c) : isBlank c = false := by
  rw [isAsciiDigit_iff] at h
  simp [isBlank]
  omega

theorem trimLeft_eq_self {cs : List Char} (h : ∀ c ∈ cs, isBlank c = false) : trimLeft cs = cs := by
  cases cs with
  | nil => rfl
  | cons c cs => exact trimLeft_cons_of_not_blank (h c (by simp)) cs

/-- A text without blanks is trimmed already. -/
theorem trim_eq_self {cs : List Char} (h : ∀ c ∈ cs, isBlank c = false) : trim cs = cs := by
  have hr : trimLeft cs.reverse = cs.reverse := trimLeft_eq_self fun c hc => h c (by simpa using hc)
  rw [trim, trimLeft_eq_self h, trimRight]
  rw [trimLeft] at hr
  rw [hr, List.reverse_reverse]

theorem digitValue_ascii {c : Char} (h : isAsciiDigit c) : digitValue c = c.toNat - '0'.toNat := by
  rw [isAsciiDigit_iff] at h
  have h0 : '0'.toNat = 0x30 := rfl
  have hfind : digitZeros.find? (fun z => z ≤ c.toNat && c.toNat < z + 10) = some 0x30 := by
    rw [digitZeros, List.find?_cons_of_pos]
    simp
    omega
  simp [digitValue, digit?, hfind, h0]

theorem natOfDigits_ascii {cs : List Char} (h : ∀ c ∈ cs, isAsciiDigit c) :
    natOfDigits cs = Nat.ofDigitChars 10 cs 0 := by
  have hfold : ∀ (cs : List Char) (n : Nat), (∀ c ∈ cs, isAsciiDigit c) →
      cs.foldl (fun n c => 10 * n + digitValue c) n = Nat.ofDigitChars 10 cs n := by
    intro cs
    induction cs with
    | nil => intro n _; rfl
    | cons c cs ih =>
      intro n h
      rw [List.foldl_cons, Nat.ofDigitChars_cons, ih _ fun d hd => h d (by simp [hd]),
        digitValue_ascii (h c (by simp))]
  exact hfold cs 0 h

end Text

namespace Numeral

open Text

variable {k : Int} {n : Nat} {s : String}

/-! ### Digits -/

theorem isAsciiDigit_toDigits : ∀ c ∈ Nat.toDigits 10 n, isAsciiDigit c := by
  intro c hc
  have h := Nat.isDigit_of_mem_toDigits (by decide) (by decide) hc
  rw [Char.isDigit, Bool.and_eq_true, decide_eq_true_eq, decide_eq_true_eq] at h
  rw [isAsciiDigit, Bool.and_eq_true, decide_eq_true_eq, decide_eq_true_eq]
  exact h

theorem isDigit_toDigits : ∀ c ∈ Nat.toDigits 10 n, isDigit c := fun c hc =>
  isDigit_ascii (isAsciiDigit_toDigits c hc)

theorem isBlank_toDigits : ∀ c ∈ Nat.toDigits 10 n, isBlank c = false := fun c hc =>
  isBlank_digit (isAsciiDigit_toDigits c hc)

/-- **The digits of a number denote it.** -/
theorem natOfDigits_toDigits (n : Nat) : natOfDigits (Nat.toDigits 10 n) = n := by
  rw [natOfDigits_ascii isAsciiDigit_toDigits]
  exact Nat.ofDigitChars_toDigits (by decide) (by decide)

theorem eq_of_toDigits {m : Nat} (h : Nat.toDigits 10 m = Nat.toDigits 10 n) : m = n := by
  rw [← natOfDigits_toDigits m, h, natOfDigits_toDigits]

theorem length_toDigits_le {e : Nat} (he : 0 < e) (h : n < Nat.pow 10 e) :
    (Nat.toDigits 10 n).length ≤ e :=
  Nat.toDigits_length 10 n e he h

theorem ofDigits?_toDigits (h : n < bound) : ofDigits? (Nat.toDigits 10 n) = some n := by
  have hlen : (Nat.toDigits 10 n).length ≤ maxDigits := by
    unfold bound at h
    exact length_toDigits_le (by decide) h
  rw [ofDigits?, if_pos hlen, natOfDigits_toDigits]

theorem digitValue_lt (c : Char) : digitValue c < 10 := by
  unfold digitValue
  cases h : digit? c with
  | none => decide
  | some d => exact digit?_lt h

/-- A run of digits denotes a number with no more digits than the run. -/
theorem natOfDigits_lt (cs : List Char) : natOfDigits cs < Nat.pow 10 cs.length := by
  have hfold : ∀ (cs : List Char) (n : Nat),
      cs.foldl (fun n c => 10 * n + digitValue c) n < (n + 1) * Nat.pow 10 cs.length := by
    intro cs
    induction cs with
    | nil =>
      intro n
      simp
    | cons c cs ih =>
      intro n
      have hdigit := digitValue_lt c
      have hnext : 10 * n + digitValue c + 1 ≤ (n + 1) * 10 := by omega
      have hpow : Nat.pow 10 (c :: cs).length = 10 * Nat.pow 10 cs.length := by
        rw [List.length_cons, Nat.pow_eq, Nat.pow_succ, Nat.mul_comm]
        rfl
      calc (c :: cs).foldl (fun n c => 10 * n + digitValue c) n
          = cs.foldl (fun n c => 10 * n + digitValue c) (10 * n + digitValue c) := rfl
        _ < (10 * n + digitValue c + 1) * Nat.pow 10 cs.length := ih _
        _ ≤ (n + 1) * 10 * Nat.pow 10 cs.length := Nat.mul_le_mul_right _ hnext
        _ = (n + 1) * Nat.pow 10 (c :: cs).length := by rw [hpow, Nat.mul_assoc]
  have hall := hfold cs 0
  rwa [Nat.zero_add, Nat.one_mul] at hall

/-- A run of digits that is read denotes a number that can be written. -/
theorem lt_of_ofDigits? {cs : List Char} (h : ofDigits? cs = some n) : n < bound := by
  unfold ofDigits? at h
  split at h
  · rename_i hlen
    obtain rfl := Option.some.inj h
    have hpow : ∀ e, cs.length ≤ e → Nat.pow 10 cs.length ≤ Nat.pow 10 e := fun e he =>
      Nat.pow_le_pow_right (by decide) he
    unfold bound
    exact lt_of_lt_of_le (natOfDigits_lt cs) (hpow maxDigits hlen)
  · cases h

/-- Digits need no grouping. -/
theorem groupedDigits?_of_digits : ∀ {cs : List Char}, cs ≠ [] → (∀ c ∈ cs, isDigit c) →
    groupedDigits? cs = some cs
  | [], hne, _ => absurd rfl hne
  | [c], _, h => by simp [groupedDigits?, h c (by simp)]
  | c :: d :: rest, _, h => by
    have hd : d ≠ '_' := by
      rintro rfl
      exact absurd (h '_' (by simp)) (by decide)
    have ih : groupedDigits? (d :: rest) = some (d :: rest) :=
      groupedDigits?_of_digits (by simp) fun e he => h e (by simp [he])
    rw [groupedDigits?, if_pos (h c (by simp)), ih, Option.map_some]
    · exact fun he => List.cons_ne_nil _ _ he
    · exact fun _ he => hd (List.cons.inj he).1

/-! ### The two forms of the text -/

theorem natAbs_lt_of_text? (h : text? k = some s) : k.natAbs < bound := by
  by_contra hk
  rw [text?, if_neg hk] at h
  cases h

theorem toList_of_nonneg (h : text? k = some s) (hk : 0 ≤ k) :
    s.toList = Nat.toDigits 10 k.natAbs := by
  simp only [text?, if_pos (natAbs_lt_of_text? h), if_neg (not_lt.mpr hk)] at h
  rw [← Option.some.inj h, String.toList_ofList]

theorem toList_of_neg (h : text? k = some s) (hk : k < 0) :
    s.toList = '-' :: Nat.toDigits 10 k.natAbs := by
  simp only [text?, if_pos (natAbs_lt_of_text? h), if_pos hk] at h
  rw [← Option.some.inj h, String.toList_ofList]

theorem readInt?_toDigits (h : n < bound) : readInt? (Nat.toDigits 10 n) = some n := by
  have hsign : readSign (Nat.toDigits 10 n) = (false, Nat.toDigits 10 n) := by
    cases hd : Nat.toDigits 10 n with
    | nil => rfl
    | cons c cs =>
      have hc := isAsciiDigit_toDigits c (n := n) (by simp [hd])
      unfold readSign
      split
      · rename_i he
        obtain rfl : c = '-' := by simpa using (List.cons.inj he).1
        exact absurd hc (by decide)
      · rename_i he
        obtain rfl : c = '+' := by simpa using (List.cons.inj he).1
        exact absurd hc (by decide)
      · rfl
  simp [readInt?, trim_eq_self isBlank_toDigits, hsign,
    groupedDigits?_of_digits Nat.toDigits_ne_nil isDigit_toDigits, ofDigits?_toDigits h]

theorem readInt?_neg_toDigits (h : n < bound) : readInt? ('-' :: Nat.toDigits 10 n) = some (-(n : Int)) := by
  have hblank : ∀ c ∈ '-' :: Nat.toDigits 10 n, isBlank c = false := by
    intro c hc
    rcases List.mem_cons.mp hc with rfl | hc
    · decide
    · exact isBlank_toDigits c hc
  simp [readInt?, trim_eq_self hblank, readSign,
    groupedDigits?_of_digits Nat.toDigits_ne_nil isDigit_toDigits, ofDigits?_toDigits h]

/-- **What is written is read back.** -/
theorem readInt?_text (h : text? k = some s) : readInt? s.toList = some k := by
  have hlt := natAbs_lt_of_text? h
  by_cases hk : 0 ≤ k
  · rw [toList_of_nonneg h hk, readInt?_toDigits hlt]
    exact congrArg some (Int.natAbs_of_nonneg hk)
  · have hk : k < 0 := not_le.mp hk
    rw [toList_of_neg h hk, readInt?_neg_toDigits hlt]
    exact congrArg some (by rw [Int.ofNat_natAbs_of_nonpos hk.le, neg_neg])

end Numeral

end RowPipeline
