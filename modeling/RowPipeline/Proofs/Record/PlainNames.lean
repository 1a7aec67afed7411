import RowPipeline.Proofs.Expression.FirstName
import RowPipeline.Proofs.Record.ConfigFields

/-!
# Field names as texts

A field name such as `cpu/energy` is read as a quotient, and `a-b/c` as a quotient of a name with a hyphen. Yet
wherever a text may stand for a field, the name stands for itself, also with blanks around it (`IsPlainName`): it
has no marker and no digits, and what is read off it is the whole of it (`IsPlainName.variableName?_eq`). So it is
no expression, it is never evaluated, and as an output parameter it leaves a row alone that has the field
(`plainName_inert`).
-/

namespace RowPipeline

open Text Expression Record

namespace Expression

variable {cs lead trail : List Char} {s name : String}

/-! ### Joined letters -/

theorem JoinedLetters.mem (h : JoinedLetters cs) : ∀ c ∈ cs, isAsciiLetter c ∨ c = '-' ∨ c = '/' := by
  induction h with
  | letter hl => simpa using Or.inl hl
  | word hl h ih => simpa using ⟨Or.inl hl, ih⟩
  | join hl hj h ih => simpa using ⟨Or.inl hl, Or.inr hj, ih⟩

theorem JoinedLetters.exists_last (h : JoinedLetters cs) :
    ∃ front l, cs = front ++ [l] ∧ isAsciiLetter l := by
  induction h with
  | @letter l hl => exact ⟨[], l, rfl, hl⟩
  | @word a cs hl h ih =>
    obtain ⟨front, l, rfl, hlast⟩ := ih
    exact ⟨a :: front, l, rfl, hlast⟩
  | @join a j cs hl hj h ih =>
    obtain ⟨front, l, rfl, hlast⟩ := ih
    exact ⟨a :: j :: front, l, rfl, hlast⟩

/-- There are no digits among them, and so no long numerals. -/
theorem JoinedLetters.runsFit (h : JoinedLetters cs) : RunsFit cs := by
  intro run hrun hdigits
  cases run with
  | nil => exact Nat.zero_le _
  | cons c run =>
    have hc : isDigit c := hdigits c (by simp)
    rcases h.mem c (hrun.subset (by simp)) with hl | rfl | rfl
    · rw [isDigit_letter hl] at hc
      cases hc
    · exact absurd hc (by decide)
    · exact absurd hc (by decide)

theorem endsLetters_of_blanks (h : ∀ c ∈ cs, isBlank c) : EndsLetters cs := by
  cases cs with
  | nil => rfl
  | cons c cs =>
    have hc : isBlank c := h c (by simp)
    refine endsLetters_cons.mpr ⟨(Bool.or_eq_false_iff.mp (isAsciiWord_blank hc)).1, ?_⟩
    rintro (rfl | rfl)
    · exact absurd hc (by decide)
    · exact absurd hc (by decide)

/-- Blanks around joined letters are trimmed off. -/
theorem JoinedLetters.trim_append (h : JoinedLetters cs) (hlead : ∀ c ∈ lead, isBlank c)
    (htrail : ∀ c ∈ trail, isBlank c) : trim (lead ++ (cs ++ trail)) = cs := by
  have hleft : trimLeft (lead ++ (cs ++ trail)) = cs ++ trail := by
    obtain ⟨l, more, rfl, hl⟩ := h.exists_cons
    rw [trimLeft, List.dropWhile_append_of_pos hlead]
    exact trimLeft_cons_of_not_blank (isBlank_letter hl) _
  obtain ⟨front, l, rfl, hl⟩ := h.exists_last
  have hreverse : (front ++ [l] ++ trail).reverse = trail.reverse ++ l :: front.reverse := by simp
  have hright : (trail.reverse ++ l :: front.reverse).dropWhile isBlank = l :: front.reverse := by
    rw [List.dropWhile_append_of_pos (by simpa using htrail)]
    exact trimLeft_cons_of_not_blank (isBlank_letter hl) _
  rw [trim, hleft, trimRight, hreverse, hright]
  simp

/-! ### Names -/

/-- The text is the name, with blanks around it, and the name is runs of ASCII letters joined by single hyphens
or slashes. -/
structure IsPlainName (s name : String) : Prop where
  letters : JoinedLetters name.toList
  around : ∃ lead trail, s.toList = lead ++ (name.toList ++ trail) ∧ (∀ c ∈ lead, isBlank c) ∧
    ∀ c ∈ trail, isBlank c

namespace IsPlainName

theorem trim_eq (h : IsPlainName s name) : trim s.toList = name.toList := by
  obtain ⟨lead, trail, hs, hlead, htrail⟩ := h.around
  rw [hs, h.letters.trim_append hlead htrail]

theorem hasMarker_eq (h : IsPlainName s name) : hasMarker s = false := by
  obtain ⟨lead, trail, hs, hlead, -⟩ := h.around
  obtain ⟨l, more, hname, hl⟩ := h.letters.exists_cons
  rw [hasMarker, hs, hname, trimLeft, List.dropWhile_append_of_pos hlead, List.cons_append,
    List.dropWhile_cons_of_neg (by simp [isBlank_letter hl]), List.head?_cons]
  refine beq_false_of_ne fun he => ?_
  rw [Option.some.inj he] at hl
  exact absurd hl (by decide)

theorem body_eq (h : IsPlainName s name) : body s = name.toList := by
  obtain ⟨l, more, hname, hl⟩ := h.letters.exists_cons
  have hmarker : l ≠ marker := by
    rintro rfl
    exact absurd hl (by decide)
  rw [body, h.trim_eq, hname]
  exact if_neg (by simpa using hmarker)

theorem isClosed_eq (h : IsPlainName s name) : isClosed s = false := by
  obtain ⟨l, more, hname, hl⟩ := h.letters.exists_cons
  rw [isClosed, h.body_eq, hname]
  exact isClosedFrom_number_eq_false (isBlank_letter hl) (isDigit_letter hl)

/-- What is read off the text is the whole name. -/
theorem variableName?_eq (h : IsPlainName s name) : variableName? s = some name := by
  obtain ⟨lead, trail, hs, hlead, htrail⟩ := h.around
  refine variableName?_eq_some_iff.mpr ⟨lead, trail, hs, fun c hc => ?_, h.letters, ?_⟩
  · exact (Bool.or_eq_false_iff.mp (isAsciiWord_blank (hlead c hc))).1
  · exact endsLetters_of_blanks htrail

/-- A name may be read as a quotient, but it is what is read off it. -/
theorem isExpression_eq (h : IsPlainName s name) : isExpression s = .ok false := by
  have hfits : tokenize (body s) ≠ .error .numeralTooLong := by
    rw [h.body_eq]
    exact h.letters.runsFit.tokenize_ne
  cases he : isExpression s with
  | error failure => exact absurd (isExpression_error_iff.mp he).2 hfits
  | ok expression =>
    obtain ⟨read, -, hread⟩ := bind_eq_ok_iff.mp he
    cases read with
    | none => exact hread.symm
    | some tree =>
      rw [← hread, h.hasMarker_eq, h.variableName?_eq, h.trim_eq]
      simp [pure, Except.pure]

theorem needsEvaluation_eq (h : IsPlainName s name) : needsEvaluation (.text s) = false := by
  rw [needsEvaluation, h.hasMarker_eq, h.isClosed_eq]
  rfl

theorem checkShape_eq (h : IsPlainName s name) (field : Key) : checkShape field (.text s) = .ok (.text s) := by
  simp only [checkShape, h.isClosed_eq, h.isExpression_eq, h.hasMarker_eq]
  rfl

theorem evaluateSimple_eq (h : IsPlainName s name) : evaluateSimple (.text s) = .ok (.text s) := by
  rw [evaluateSimple, h.isClosed_eq]
  rfl

theorem evaluate_eq (h : IsPlainName s name) (context : Record) (allow : List Key) {field : Key}
    (hf : field ≠ timestamp) : evaluate context allow field (.text s) = pure (.text s) := by
  rw [evaluate, evaluateWith_of_inert hf (by rw [h.needsEvaluation_eq]; rfl)]

theorem evaluateOutput_eq (h : IsPlainName s name) (row : Record) :
    (evaluateOutput (.text s) row).outcome = .ok (row.insert (.text s) (row.read (.text s))) := by
  simp only [evaluateOutput, h.hasMarker_eq, h.isExpression_eq]
  rfl

end IsPlainName

/-- Setting a field of a row to what it holds changes nothing. -/
theorem insert_read {row : Record} {field : Key} (h : row.contains field) :
    row.insert field (row.read field) = row := by
  obtain ⟨v, hv⟩ := Option.isSome_iff_exists.mp h
  rw [Record.read, hv, Option.getD_some]
  exact Fields.ext (Entries.put_of_get? hv)

/-- **A field name stands for itself.** Runs of ASCII letters joined by single hyphens or slashes, with blanks
around them, are no expression and not closed; their shape is accepted, and evaluation leaves them alone. What is
read off them is the name without the blanks. As an output parameter such a text leaves every row alone that has
the field. -/
theorem plainName_inert (s name : String) (h : IsPlainName s name) :
    isExpression s = .ok false ∧ isClosed s = false ∧
      (∀ field, checkShape field (.text s) = .ok (.text s)) ∧
      evaluateSimple (.text s) = .ok (.text s) ∧
      (∀ context allow field, field ≠ timestamp →
        (evaluate context allow field (.text s)).outcome = .ok (.text s)) ∧
      extractVariable (.text s) = .ok (.text name) ∧
      ∀ row : Record, row.contains (.text s) → (evaluateOutput (.text s) row).outcome = .ok row := by
  refine ⟨h.isExpression_eq, h.isClosed_eq, h.checkShape_eq, h.evaluateSimple_eq, ?_,
    extractVariable_of_open h.isClosed_eq h.variableName?_eq, fun row hrow => ?_⟩
  · intro context allow field hf
    rw [h.evaluate_eq context allow hf]
    rfl
  · rw [h.evaluateOutput_eq, insert_read hrow]

/-- A quotient of two names, the first one with a hyphen, between blanks. -/
theorem plainName_inert_of_quotient :
    let s := " energy-use/year\t"
    let row : Record := ⟨[(.text s, .int 3), (.text "year", .int 0)], by decide⟩
    IsPlainName s "energy-use/year" ∧
      Tree.parse (body s) = .ok (.binary .div (.name "energy-use" false) (.name "year" false)) ∧
      isExpression s = .ok false ∧ (evaluate row [] (.text "field") (.text s)).outcome = .ok (.text s) ∧
      extractVariable (.text s) = .ok (.text "energy-use/year") ∧
      (evaluateOutput (.text s) row).outcome = .ok row := by
  intro s row
  have hname : variableName? s = some "energy-use/year" := by decide +kernel
  have h : IsPlainName s "energy-use/year" := by
    obtain ⟨-, -, -, -, hletters, -⟩ := variableName?_eq_some_iff.mp hname
    exact ⟨hletters, [' '], ['\t'], by decide +kernel, List.forall_mem_singleton.mpr (by decide),
      List.forall_mem_singleton.mpr (by decide)⟩
  obtain ⟨hexpression, -, -, -, hvalue, hvariable, houtput⟩ := plainName_inert s _ h
  exact ⟨h, by decide +kernel, hexpression, hvalue row [] _ (by decide), hvariable, houtput row rfl⟩

end Expression

end RowPipeline
