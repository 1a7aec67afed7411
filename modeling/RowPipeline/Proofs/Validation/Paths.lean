import Mathlib.Tactic.Common
import RowPipeline.Proofs.Numeral
import RowPipeline.Validation.Issue

/-!
# Written paths

A path is written with points between its steps, and then the points in front of brackets are left out. Where
names are not empty and hold neither a point nor an opening bracket, the written form is the first step followed by
each other step as it is linked to those before it (`Path.toList_flatten_cons`): a name behind a point, an index in
its brackets. A point is put back in front of a leading name (`Path.flatMap_linked`), and then each step ends where
the next one begins.

Main statement: such paths are written differently, and an issue is reported by its message alone iff it is at the
root (`Path.flatten_unambiguous`).
-/

namespace RowPipeline

/-! ### Texts up to a delimiter -/

/-- A text is cut in one way only where what follows starts with a character that the first part does not hold. -/
theorem eq_of_append_delimited {p : Char → Bool} {front front' back back' : List Char}
    (hfront : ∀ c ∈ front, p c) (hfront' : ∀ c ∈ front', p c) (hback : ∀ c ∈ back.head?, p c = false)
    (hback' : ∀ c ∈ back'.head?, p c = false) (h : front ++ back = front' ++ back') :
    front = front' ∧ back = back' := by
  have hstop : ∀ {cs : List Char}, (∀ c ∈ cs.head?, p c = false) → cs.takeWhile p = [] := by
    intro cs hcs
    cases cs with
    | nil => rfl
    | cons c cs => exact List.takeWhile_cons_of_neg (by simp [hcs c rfl])
  have htake : front = front' := by
    have heq := congrArg (List.takeWhile p) h
    rwa [List.takeWhile_append_of_pos hfront, List.takeWhile_append_of_pos hfront', hstop hback, hstop hback',
      List.append_nil, List.append_nil] at heq
  subst htake
  exact ⟨rfl, List.append_cancel_left h⟩

/-! ### Steps -/

namespace PathPart

variable {part part' : PathPart} {s t : String} {i j : Int} {back back' : List Char}

/-- A step that can be read off a path: an index, or a name that is not empty and holds no point and no opening
bracket. A closing bracket in a name does no harm. -/
def Clear : PathPart → Prop
  | name s => s ≠ "" ∧ '.' ∉ s.toList ∧ '[' ∉ s.toList
  | index _ => True

instance : DecidablePred Clear
  | name _ => inferInstanceAs (Decidable (_ ∧ _ ∧ _))
  | index _ => inferInstanceAs (Decidable True)

/-- A step as it follows others in a written path. -/
def linked : PathPart → List Char
  | name s => '.' :: s.toList
  | index i => (index i).written.toList

theorem toList_written_index (i : Int) :
    (index i).written.toList = '[' :: ((toString i).toList ++ [']']) := by
  simp [written]

theorem toList_toString_of_nonneg (hi : 0 ≤ i) : (toString i).toList = Nat.toDigits 10 i.toNat := by
  rw [Int.toString_eq_repr, Int.repr_eq_if, if_pos hi, Nat.toList_repr]

theorem toList_toString_of_neg (hi : i < 0) : (toString i).toList = '-' :: Nat.toDigits 10 (-i).toNat := by
  rw [Int.toString_eq_repr, Int.repr_eq_if, if_neg (by omega), String.toList_append, Nat.toList_repr]
  rfl

/-- The text of a whole number holds digits and a sign only. -/
theorem not_mem_toString {c : Char} (hsign : c ≠ '-') (hdigit : Text.isAsciiDigit c = false) (i : Int) :
    c ∉ (toString i).toList := by
  have hdigits : ∀ n : Nat, c ∉ Nat.toDigits 10 n := by
    intro n hmem
    rw [Numeral.isAsciiDigit_toDigits c hmem] at hdigit
    cases hdigit
  by_cases hi : 0 ≤ i
  · rw [toList_toString_of_nonneg hi]
    exact hdigits _
  · rw [toList_toString_of_neg (by omega), List.mem_cons]
    rintro (hmem | hmem)
    · exact hsign hmem
    · exact hdigits _ hmem

/-- The text of a whole number determines it. -/
theorem eq_of_toString (h : (toString i).toList = (toString j).toList) : i = j := by
  have hsign : ∀ n : Nat, '-' ∉ Nat.toDigits 10 n := by
    intro n hmem
    exact absurd (Numeral.isAsciiDigit_toDigits '-' hmem) (by decide)
  by_cases hi : 0 ≤ i <;> by_cases hj : 0 ≤ j
  · rw [toList_toString_of_nonneg hi, toList_toString_of_nonneg hj] at h
    have := Numeral.eq_of_toDigits h
    omega
  · rw [toList_toString_of_nonneg hi, toList_toString_of_neg (by omega)] at h
    exact absurd (h ▸ List.mem_cons_self) (hsign i.toNat)
  · rw [toList_toString_of_neg (by omega), toList_toString_of_nonneg hj] at h
    exact absurd (h ▸ List.mem_cons_self) (hsign j.toNat)
  · rw [toList_toString_of_neg (by omega), toList_toString_of_neg (by omega)] at h
    have := Numeral.eq_of_toDigits (List.cons.inj h).2
    omega

theorem Clear.exists_cons (h : (name s).Clear) : ∃ c cs, s.toList = c :: cs ∧ c ≠ '[' := by
  obtain ⟨hne, -, hbracket⟩ := h
  cases hs : s.toList with
  | nil => exact absurd (String.toList_inj.mp hs) hne
  | cons c cs =>
    refine ⟨c, cs, rfl, ?_⟩
    rintro rfl
    exact hbracket (by simp [hs])

theorem Clear.point_not_mem (h : part.Clear) : '.' ∉ part.written.toList := by
  cases part with
  | name s => exact h.2.1
  | index i =>
    rw [toList_written_index]
    simpa using not_mem_toString (c := '.') (by decide) (by decide) i

/-! ### Steps in front of others -/

/-- Whether a character may stand in a name that can be read off. -/
def isNameChar (c : Char) : Bool := c != '.' && c != '['

theorem Clear.isNameChar (h : (name s).Clear) : ∀ c ∈ s.toList, isNameChar c := by
  obtain ⟨-, hpoint, hbracket⟩ := h
  intro c hc
  have hne : c ≠ '.' := fun he => hpoint (he ▸ hc)
  have hne' : c ≠ '[' := fun he => hbracket (he ▸ hc)
  simp [PathPart.isNameChar, hne, hne']

/-- A text that does not go on with a name: it is empty, or it starts with the point or the bracket of a step. -/
def StartsStep (cs : List Char) : Prop := ∀ c ∈ cs.head?, isNameChar c = false

theorem startsStep_linked (part : PathPart) (cs : List Char) : StartsStep (part.linked ++ cs) := by
  intro c hc
  cases part with
  | name s =>
    obtain rfl : '.' = c := Option.some.inj hc
    rfl
  | index i =>
    rw [linked, toList_written_index] at hc
    obtain rfl : '[' = c := Option.some.inj hc
    rfl

/-- A name ends in front of the next point or bracket. -/
theorem Clear.eq_of_append (h : (name s).Clear) (h' : (name t).Clear) (hback : StartsStep back)
    (hback' : StartsStep back') (heq : s.toList ++ back = t.toList ++ back') : s = t ∧ back = back' := by
  obtain ⟨hst, hrest⟩ := eq_of_append_delimited h.isNameChar h'.isNameChar hback hback' heq
  exact ⟨String.toList_inj.mp hst, hrest⟩

/-- A number ends in front of the closing bracket. -/
theorem eq_of_append_toString (heq : (toString i).toList ++ ']' :: back = (toString j).toList ++ ']' :: back') :
    i = j ∧ back = back' := by
  have hnumber : ∀ k : Int, ∀ c ∈ (toString k).toList, (c != ']') = true := by
    intro k c hc
    rw [bne_iff_ne]
    rintro rfl
    exact not_mem_toString (by decide) (by decide) k hc
  have hstop : ∀ cs : List Char, ∀ c ∈ (']' :: cs).head?, (c != ']') = false := by simp
  obtain ⟨hij, hrest⟩ := eq_of_append_delimited (hnumber i) (hnumber j) (hstop back) (hstop back') heq
  exact ⟨eq_of_toString hij, (List.cons.inj hrest).2⟩

/-- **Steps are read off one by one** where they are clear. -/
theorem Clear.eq_of_linked (h : part.Clear) (h' : part'.Clear) (hback : StartsStep back)
    (hback' : StartsStep back') (heq : part.linked ++ back = part'.linked ++ back') :
    part = part' ∧ back = back' := by
  have hindex : ∀ k cs, (index k).linked ++ cs = '[' :: ((toString k).toList ++ ']' :: cs) := by
    intro k cs
    rw [linked, toList_written_index, List.cons_append, List.append_assoc, List.singleton_append]
  cases part with
  | name s =>
    cases part' with
    | name t =>
      obtain ⟨rfl, hrest⟩ := h.eq_of_append h' hback hback' (List.cons.inj heq).2
      exact ⟨rfl, hrest⟩
    | index j =>
      rw [hindex] at heq
      exact absurd (List.cons.inj heq).1 (by decide)
  | index i =>
    rw [hindex] at heq
    cases part' with
    | name t => exact absurd (List.cons.inj heq).1 (by decide)
    | index j =>
      rw [hindex] at heq
      obtain ⟨rfl, hrest⟩ := eq_of_append_toString (List.cons.inj heq).2
      exact ⟨rfl, hrest⟩

end PathPart

namespace Path

open PathPart

variable {p q rest rest' : Path} {part part' : PathPart}

/-- A path whose steps can be read off its written form. -/
def Clear (p : Path) : Prop := ∀ part ∈ p, part.Clear

instance : DecidablePred Clear := fun p => inferInstanceAs (Decidable (∀ part ∈ p, part.Clear))

theorem clear_cons : Clear (part :: rest) ↔ part.Clear ∧ rest.Clear := List.forall_mem_cons

/-! ### The written form -/

theorem closeUp_append {cs : List Char} (h : '.' ∉ cs) (ds : List Char) :
    closeUp (cs ++ ds) = cs ++ closeUp ds := by
  induction cs with
  | nil => rfl
  | cons c cs ih =>
    rw [List.mem_cons, not_or] at h
    rw [List.cons_append, closeUp, ih h.2]
    · rfl
    · rintro tail rfl
      exact absurd rfl h.1

/-- A step behind a point is written as it is linked. -/
theorem closeUp_point (h : part.Clear) (ds : List Char) :
    closeUp ('.' :: (part.written.toList ++ ds)) = part.linked ++ closeUp ds := by
  have hwritten := closeUp_append h.point_not_mem ds
  cases part with
  | name s =>
    obtain ⟨c, cs, hs, hc⟩ := h.exists_cons
    have hpoint : closeUp ('.' :: (s.toList ++ ds)) = '.' :: closeUp (s.toList ++ ds) := by
      rw [hs, List.cons_append, closeUp]
      rintro tail - htail
      exact hc (List.cons.inj htail).1
    exact hpoint.trans (congrArg ('.' :: ·) hwritten)
  | index i =>
    have hpoint : closeUp ('.' :: ((index i).written.toList ++ ds)) =
        closeUp ((index i).written.toList ++ ds) := by
      rw [toList_written_index]
      rfl
    exact hpoint.trans hwritten

theorem closeUp_flatMap (h : rest.Clear) :
    closeUp (rest.flatMap fun part => '.' :: part.written.toList) = rest.flatMap linked := by
  induction rest with
  | nil => rfl
  | cons part rest ih =>
    obtain ⟨hpart, hrest⟩ := clear_cons.mp h
    rw [List.flatMap_cons, List.cons_append, closeUp_point hpart, ih hrest, List.flatMap_cons]

theorem toList_intercalate_written (part : PathPart) (rest : Path) :
    (".".intercalate ((part :: rest).map written)).toList =
      part.written.toList ++ rest.flatMap fun part => '.' :: part.written.toList := by
  rw [String.toList_intercalate]
  induction rest generalizing part with
  | nil => simp
  | cons next rest ih =>
    have hstep := ih next
    simp only [List.map_cons] at hstep ⊢
    rw [List.intercalate_cons_cons, hstep, List.flatMap_cons]
    simp

/-- **The written form of a path**: its first step, and every other step as it is linked. -/
theorem toList_flatten_cons (h : Clear (part :: rest)) :
    (flatten (part :: rest)).toList = part.written.toList ++ rest.flatMap linked := by
  obtain ⟨hpart, hrest⟩ := clear_cons.mp h
  rw [flatten, String.toList_ofList, toList_intercalate_written, closeUp_append hpart.point_not_mem,
    closeUp_flatMap hrest]

/-! ### Reading the steps off -/

/-- The written form of a path with a point in front of a leading name. -/
def pointed : List Char → List Char
  | [] => []
  | '[' :: cs => '[' :: cs
  | cs => '.' :: cs

theorem flatMap_linked (h : p.Clear) : p.flatMap linked = pointed p.flatten.toList := by
  cases p with
  | nil => rfl
  | cons part rest =>
    rw [toList_flatten_cons h, List.flatMap_cons]
    cases part with
    | name s =>
      obtain ⟨c, cs, hs, hc⟩ := (h (name s) (by simp)).exists_cons
      have hpointed : pointed (c :: (cs ++ rest.flatMap linked)) = '.' :: c :: (cs ++ rest.flatMap linked) := by
        rw [pointed]
        · intro he
          cases he
        · intro tail he
          exact hc (List.cons.inj he).1
      rw [linked, written, hs]
      exact hpointed.symm
    | index i =>
      rw [linked, toList_written_index]
      rfl

/-- Linked steps are read off from the first to the last. -/
theorem eq_of_flatMap_linked (hp : p.Clear) (hq : q.Clear) (h : p.flatMap linked = q.flatMap linked) :
    p = q := by
  induction p generalizing q with
  | nil =>
    cases q with
    | nil => rfl
    | cons part rest => cases part <;> simp [linked, written] at h
  | cons part rest ih =>
    cases q with
    | nil => cases part <;> simp [linked, written] at h
    | cons part' rest' =>
      obtain ⟨hpart, hrest⟩ := clear_cons.mp hp
      obtain ⟨hpart', hrest'⟩ := clear_cons.mp hq
      -- the first steps end where the next ones begin, so they are the same
      have hnext : ∀ path : Path, StartsStep (path.flatMap linked) := by
        rintro (_ | ⟨next, path⟩)
        · rintro c ⟨⟩
        · exact startsStep_linked next _
      obtain ⟨rfl, hback⟩ := hpart.eq_of_linked hpart' (hnext rest) (hnext rest') h
      rw [ih hrest hrest' hback]

end Path

/-! ### Reports -/

namespace Text

/-- A character in lowercase is one character or more. -/
theorem length_le_lowerFrom (before cs : List Char) : cs.length ≤ (lowerFrom before cs).length := by
  induction cs generalizing before with
  | nil => exact Nat.zero_le _
  | cons c cs ih =>
    have hlowered : 0 < (lowerChar c).length := by
      simp only [lowerChar]
      split
      · exact Nat.zero_lt_one
      · split
        · exact Nat.zero_lt_two
        · exact Nat.zero_lt_one
    have hrest := ih (c :: before)
    simp only [lowerFrom, List.length_append, List.length_cons]
    split
    · simp only [List.length_singleton]
      omega
    · omega

theorem length_le_lower (s : String) : s.length ≤ (lower s).length := by
  have h := length_le_lowerFrom [] s.toList
  rwa [String.length_toList, ← String.length_ofList] at h

end Text

namespace Issue

variable {index : Option Int} {issue : Issue}

/-- **An issue is reported by its message alone** iff its path is written without any character: every other report
is longer than the message. -/
theorem report_eq_message_iff : issue.report index = issue.message ↔ issue.path.flatten = "" := by
  constructor
  · intro h
    by_contra hne
    have hplace : issue.path.flatten.isEmpty = false := by simpa using hne
    have hlength := congrArg String.length h
    have hlower := Text.length_le_lower issue.message
    simp only [report, hplace, Bool.false_eq_true, if_false, String.length_append] at hlength
    have hquote : "\"".length = 1 := rfl
    omega
  · intro h
    simp [report, h]

end Issue

namespace Path

variable {p q : Path}

theorem eq_of_flatten (hp : p.Clear) (hq : q.Clear) (h : p.flatten = q.flatten) : p = q := by
  refine eq_of_flatMap_linked hp hq ?_
  rw [flatMap_linked hp, flatMap_linked hq, h]

/-- **Written paths are unambiguous** where names are not empty and hold neither a point nor an opening bracket: two
such paths with one written form are equal, only the root is written without any character, and so it is only an
issue at the root that is reported without its place, its row and its code. -/
theorem flatten_unambiguous (p q : Path) (hp : p.Clear) (hq : q.Clear) :
    (p.flatten = q.flatten → p = q) ∧ (p.flatten = "" ↔ p = []) ∧
      ∀ index message code, Issue.report index ⟨p, message, code⟩ = message ↔ p = [] := by
  have hroot : p.flatten = "" ↔ p = [] := by
    constructor
    · intro h
      exact eq_of_flatten hp (fun _ hmem => absurd hmem List.not_mem_nil) h
    · rintro rfl
      rfl
  refine ⟨eq_of_flatten hp hq, hroot, fun index message code => ?_⟩
  rw [← hroot]
  exact Issue.report_eq_message_iff

/-- A name of digits and the index of these digits behind two indices, one of them negative. -/
theorem flatten_unambiguous_of_digits :
    let p : Path := [.name "parts", .index 0, .index (-1), .name "12"]
    let q : Path := [.name "parts", .index 0, .index (-1), .index 12]
    p.Clear ∧ q.Clear ∧ p.flatten = "parts[0][-1].12" ∧ q.flatten = "parts[0][-1][12]" ∧
      (p.flatten = q.flatten → p = q) ∧ p.flatten ≠ "" ∧
        Issue.report (some 3) ⟨p, "Empty", "empty"⟩ ≠ "Empty" := by
  intro p q
  have hp : p.Clear := by decide
  have hq : q.Clear := by decide
  obtain ⟨heq, hroot, hreport⟩ := flatten_unambiguous p q hp hq
  have hne : p ≠ [] := by decide
  exact ⟨hp, hq, by decide, by decide, heq, fun h => hne (hroot.mp h), fun h => hne ((hreport _ _ _).mp h)⟩

/-- A name with a point is written as two names. -/
example : flatten [.name "a.b"] = flatten [.name "a", .name "b"] := by decide

end Path

end RowPipeline
