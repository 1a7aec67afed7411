import RowPipeline.Proofs.Expression.SoundValues
import RowPipeline.Value.Quantity

/-!
# Numbers of values

The number that a value counts as is settled (`Value.settled_of_toNumber`): a whole number of any size, or a finite
double that is no small whole number. Whole numbers, doubles, decimals and texts of either kind all end in one
normal form, and a settled number is in this form already, so the numbers that values count as are those that count
as themselves (`Value.toNumber_ofNumber_iff`). The normal form is another number of the same size
(`Number.quantity?_normalize`).

Main statement: taking the number of a value is a projection onto the settled numbers (`Value.toNumber_projects`).
Only a signalling decimal makes it fail.
-/

namespace RowPipeline

/-! ### The normal form -/

namespace Number

variable {a : Number} {x : Double} {cs : List Char}

theorem normalize_of_settled (h : a.Settled) : a.normalize = a := by
  cases a with
  | int n => rfl
  | float x =>
    obtain ⟨-, hlarge⟩ := h
    rw [normalize]
    split
    · rename_i n hn
      rw [if_neg (not_le.mpr (hlarge n hn))]
    · rfl

theorem settled_of_ofFinite? (h : ofFinite? x = some a) : a.Settled := by
  unfold ofFinite? at h
  split at h
  · rename_i hfinite
    obtain rfl := Option.some.inj h
    exact settled_normalize hfinite
  · cases h

/-- A text reads as a whole number or as the nearest double of a decimal, which has to be finite. -/
theorem settled_of_ofText? (h : ofText? cs = some a) : a.Settled := by
  unfold ofText? at h
  split at h
  · obtain rfl := Option.some.inj h
    trivial
  · obtain ⟨d, -, hd⟩ := Option.bind_eq_some_iff.mp h
    obtain ⟨x, -, hx⟩ := Option.bind_eq_some_iff.mp hd
    exact settled_of_ofFinite? hx

theorem isFinite_of_settled (h : a.Settled) : a.isFinite = true := by
  cases a with
  | int n => rfl
  | float x => exact h.1

/-- A double that is a whole number has the size of that whole number. -/
theorem ofDouble_of_toInt? {n : Int} (h : x.toInt? = some n) : Quantity.ofDouble x = .finite n := by
  obtain ⟨u, hu, hn⟩ := Option.bind_eq_some_iff.mp h
  split at hn
  · rename_i hwhole
    have hunits : u = n * Double.one := by
      rw [← Option.some.inj hn, Int.ediv_mul_cancel (Int.dvd_of_emod_eq_zero hwhole)]
    have hone : Double.one ≠ 0 := by decide +kernel
    have hsize : mkRat u Double.one = n := by
      have hcancel := Rat.mkRat_mul_right (n := n) (d := 1) hone
      rw [Nat.one_mul, Rat.mkRat_one] at hcancel
      rw [hunits, hcancel]
    cases x with
    | finite negative m e canonical =>
      rw [Quantity.ofDouble, hu, Option.getD_some, hsize]
      · rintro negative ⟨⟩
      · rintro ⟨⟩
    | infinite negative => cases hu
    | nan => cases hu
  · cases hn

theorem quantity?_normalize (a : Number) :
    (Value.ofNumber a.normalize).quantity? = (Value.ofNumber a).quantity? := by
  cases a with
  | int n => rfl
  | float x =>
    rw [normalize]
    split
    · rename_i n hn
      split
      · exact congrArg some (ofDouble_of_toInt? hn).symm
      · rfl
    · rfl

end Number

/-! ### The number of a value -/

namespace Value

variable {v : Value} {a : Number} {failure : Failure}

theorem settled_of_toNumber (h : v.toNumber = .ok (some a)) : a.Settled := by
  unfold toNumber at h
  split at h
  · obtain rfl := Option.some.inj (Except.ok.inj h)
    trivial
  · exact Number.settled_of_ofFinite? (Except.ok.inj h)
  · split at h
    · exact Number.settled_of_ofFinite? (Except.ok.inj h)
    · cases h
  · exact Number.settled_of_ofText? (Except.ok.inj h)
  · cases h

/-- **The settled numbers are those that count as themselves.** -/
theorem toNumber_ofNumber_iff : (ofNumber a).toNumber = .ok (some a) ↔ a.Settled := by
  constructor
  · exact settled_of_toNumber
  · intro h
    rw [toNumber_ofNumber, if_pos (Number.isFinite_of_settled h), Number.normalize_of_settled h]

/-- **Only a signalling decimal fails.** -/
theorem exists_of_toNumber_error (h : v.toNumber = .error failure) :
    ∃ negative payload, v = .decimal (.undefined negative true payload) := by
  unfold toNumber at h
  split at h
  · cases h
  · cases h
  · rename_i d
    split at h
    · cases h
    · rename_i hdouble
      cases d with
      | finite negative c e => cases hdouble
      | infinite negative => cases hdouble
      | undefined negative signalling payload =>
        cases signalling with
        | true => exact ⟨negative, payload, rfl⟩
        | false => cases hdouble
  · cases h
  · cases h

/-- **The number of a value is a projection onto the settled numbers.** It is there or it is not, but nothing fails,
whatever the value is, a signalling decimal apart. The number is settled, it counts as itself, and it is its own
normal form. A finite number counts as a number of its size, and the text of a whole number as that number. -/
theorem toNumber_projects (v : Value)
    (h : ∀ negative payload, v ≠ .decimal (.undefined negative true payload)) :
    ∃ r, v.toNumber = .ok r ∧
      (∀ a, r = some a → a.Settled ∧ (ofNumber a).toNumber = .ok (some a) ∧ a.normalize = a) ∧
      (∀ b : Number, v = .ofNumber b → b.isFinite →
        ∃ a, r = some a ∧ (ofNumber a).quantity? = v.quantity?) ∧
      ∀ k s, v = .text s → Numeral.text? k = some s → r = some (.int k) := by
  cases hr : v.toNumber with
  | error failure =>
    obtain ⟨negative, payload, hv⟩ := exists_of_toNumber_error hr
    exact absurd hv (h negative payload)
  | ok r =>
    refine ⟨r, rfl, ?_, ?_, ?_⟩
    · rintro a rfl
      have hsettled := settled_of_toNumber hr
      exact ⟨hsettled, toNumber_ofNumber_iff.mpr hsettled, Number.normalize_of_settled hsettled⟩
    · rintro b rfl hfinite
      have hnumber := toNumber_ofNumber b
      rw [hr, if_pos hfinite] at hnumber
      exact ⟨b.normalize, Except.ok.inj hnumber, Number.quantity?_normalize b⟩
    · rintro k s rfl hs
      have hnumber := Expression.toNumber_numeral hs
      rw [hr] at hnumber
      exact Except.ok.inj hnumber

/-- Twelve and a half, with an underscore that whole numbers and decimals may have, and with blanks around it. -/
theorem toNumber_projects_of_text :
    let v : Value := .text " 1_2.50 "
    let a : Number := .float (.ofQuotient 25 2)
    (∀ negative payload, v ≠ .decimal (.undefined negative true payload)) ∧
      v.toNumber = .ok (some a) ∧ a.Settled ∧ (ofNumber a).toNumber = .ok (some a) ∧ a.normalize = a := by
  intro v a
  have hv : ∀ negative payload, .text " 1_2.50 " ≠ Value.decimal (.undefined negative true payload) := by
    rintro negative payload ⟨⟩
  have hread : v.toNumber = .ok (some a) := by decide +kernel
  obtain ⟨r, hr, hprojects, -⟩ := toNumber_projects v hv
  have hra : r = some a := Except.ok.inj (hr.symm.trans hread)
  exact ⟨hv, hread, hprojects a hra⟩

end Value

end RowPipeline
