import RowPipeline.Validation.Union
import Mathlib.Tactic.Common

/-!
# Paths of union issues

The location of an issue is a path in the value with the tags of union members put in between (`Tagged`). A tag
leads nowhere, so walking the value tells the steps from the tags, and the first tag is found wherever it stands
(`Tagged.splitAtTag`). Taking it out leaves a location of the same path with one tag less. So the path of a data
entry is reported where its location holds one tag at most; of the tags of nested unions all but the first are
reported as if they were steps (`Issue.mergeUnions_tagged`).
-/

namespace RowPipeline

namespace Value

variable {v next : Value} {part : PathPart} {name : String} {loc : Path}

theorem splitAtTag_of_step (missing : Bool) (h : v.step? part = some next) :
    v.splitAtTag missing (part :: loc) =
      (next.splitAtTag missing loc).map fun (front, back) => (part :: front, back) := by
  rw [splitAtTag.eq_def]
  simp only [h]

/-- A name that leads nowhere is a tag, whatever the value is. -/
theorem splitAtTag_of_name (h : v.step? (.name name) = none) :
    v.splitAtTag false (.name name :: loc) = some ([], loc) := by
  rw [splitAtTag.eq_def]
  simp only [h]
  cases v <;> rfl

end Value

/-- A location in a value is a path there with a number of tags put in. A tag is a name that the value at its
place does not have as a key. -/
inductive Tagged : Value → Path → Path → Nat → Prop
  | finish (v : Value) : Tagged v [] [] 0
  | step {v next : Value} {part : PathPart} {path loc : Path} {n : Nat} :
      v.step? part = some next → Tagged next path loc n → Tagged v (part :: path) (part :: loc) n
  | tag {v : Value} {name : String} {path loc : Path} {n : Nat} :
      (∀ es, v = .dict es → .text name ∉ Entries.keys es) → Tagged v path loc n →
        Tagged v path (.name name :: loc) (n + 1)

namespace Tagged

variable {v : Value} {path loc : Path} {n : Nat}

theorem step?_eq_none {name : String} (h : ∀ es, v = .dict es → .text name ∉ Entries.keys es) :
    v.step? (.name name) = none := by
  cases v with
  | scalar s => rfl
  | list items => rfl
  | dict es => exact Entries.get?_eq_none_iff.mpr (h es rfl)

theorem length_eq (h : Tagged v path loc n) : loc.length = path.length + n := by
  induction h with
  | finish v => rfl
  | step hstep _ ih => rw [List.length_cons, List.length_cons, ih, Nat.add_right_comm]
  | tag hname _ ih => rw [List.length_cons, ih, Nat.add_assoc]

/-- Without tags a location is the path. -/
theorem eq_of_no_tag (h : Tagged v path loc 0) : loc = path := by
  generalize hn : 0 = n at h
  induction h with
  | finish v => rfl
  | step hstep _ ih => rw [ih hn]
  | tag hname _ ih => cases hn

/-- **The walk along a location** meets no tag, or it meets the first one, and what is left without it is a
location with one tag less. -/
theorem splitAtTag (h : Tagged v path loc n) :
    (n = 0 ∧ v.splitAtTag false loc = none) ∨
      ∃ front back k, n = k + 1 ∧ v.splitAtTag false loc = some (front, back) ∧
        Tagged v path (front ++ back) k := by
  induction h with
  | finish v => exact Or.inl ⟨rfl, by cases v <;> rfl⟩
  | @step v next part path loc n hstep _ ih =>
    have hwalk : v.splitAtTag false (part :: loc) =
        (next.splitAtTag false loc).map fun (front, back) => (part :: front, back) :=
      Value.splitAtTag_of_step false hstep
    rcases ih with ⟨rfl, hnone⟩ | ⟨front, back, k, rfl, hsome, hrest⟩
    · exact Or.inl ⟨rfl, by rw [hwalk, hnone]; rfl⟩
    · exact Or.inr ⟨part :: front, back, k, rfl, by rw [hwalk, hsome]; rfl, .step hstep hrest⟩
  | @tag v name path loc n hname htail ih =>
    exact Or.inr ⟨[], loc, n, rfl, Value.splitAtTag_of_name (step?_eq_none hname), htail⟩

end Tagged

namespace Issue

/-- **Of the tags in a location the first is taken out.** An issue whose location is a path with tags is
reported under the code of unions iff there is a tag, and at the path itself iff there is one tag at most;
otherwise the other tags stay in what is reported. -/
theorem mergeUnions_tagged (v : Value) (path loc : Path) (n : Nat) (message code : String)
    (h : Tagged v path loc n) (hcode : code ≠ missingCode) :
    ∃ reported, mergeUnions v [⟨loc, message, code⟩] =
        [⟨reported, message, if n = 0 then code else unionCode⟩] ∧
      (reported = path ↔ n ≤ 1) ∧ Tagged v path reported (n - 1) := by
  have hmissing : (code == missingCode) = false := by simpa using hcode
  rcases h.splitAtTag with ⟨rfl, hnone⟩ | ⟨front, back, k, rfl, hsome, hrest⟩
  · refine ⟨loc, ?_, ?_, h⟩
    · simp only [mergeUnions, mergeUnionsFrom, hmissing, hnone]
      rfl
    · exact iff_of_true h.eq_of_no_tag (by omega)
  · refine ⟨front ++ back, ?_, ?_, hrest⟩
    · simp only [mergeUnions, mergeUnionsFrom, hmissing, hsome]
      rfl
    · constructor
      · intro heq
        have hlength := hrest.length_eq
        rw [heq] at hlength
        omega
      · intro hk
        obtain rfl : k = 0 := by omega
        exact hrest.eq_of_no_tag

/-- A part of a list whose amount fits no member of its union. -/
theorem mergeUnions_tagged_of_part :
    let v : Value := .dict [(.text "parts", .list [.dict [(.text "amount", .list [.int 2])]])]
    Tagged v [.name "parts", .index 0, .name "amount"]
        [.name "parts", .index 0, .name "amount", .name "int"] 1 ∧
      "int_type" ≠ missingCode ∧
      mergeUnions v [⟨[.name "parts", .index 0, .name "amount", .name "int"],
          "Input should be a valid integer", "int_type"⟩] =
        [⟨[.name "parts", .index 0, .name "amount"], "Input should be a valid integer", unionCode⟩] := by
  intro v
  have htagged : Tagged v [.name "parts", .index 0, .name "amount"]
      [.name "parts", .index 0, .name "amount", .name "int"] 1 :=
    .step rfl (.step rfl (.step rfl (.tag (by rintro es ⟨⟩) (.finish _))))
  have hcode : "int_type" ≠ missingCode := by decide
  obtain ⟨reported, hmerged, hpath, -⟩ :=
    mergeUnions_tagged _ _ _ _ "Input should be a valid integer" _ htagged hcode
  obtain rfl := hpath.mpr (Nat.le_refl 1)
  exact ⟨htagged, hcode, hmerged⟩

/-- **Two unions, one inside the other**: a list of amounts is a member of the outer one. The tag of the inner
union is reported as a name in the first item, which is a list. -/
theorem mergeUnions_tagged_of_nested :
    let v : Value := .dict [(.text "amount", .list [.list [.int 1]])]
    let loc : Path := [.name "amount", .name "list[union[int,str]]", .index 0, .name "int"]
    Tagged v [.name "amount", .index 0] loc 2 ∧ "int_type" ≠ missingCode ∧
      mergeUnions v [⟨loc, "Input should be a valid integer", "int_type"⟩] =
        [⟨[.name "amount", .index 0, .name "int"], "Input should be a valid integer", unionCode⟩] ∧
      ([.name "amount", .index 0, .name "int"] : Path) ≠ [.name "amount", .index 0] := by
  refine ⟨?_, by decide, rfl, by decide⟩
  exact .step rfl (.tag (by rintro es ⟨⟩) (.step rfl (.tag (by rintro es ⟨⟩) (.finish _))))

end Issue

end RowPipeline
