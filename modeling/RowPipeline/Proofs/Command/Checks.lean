import RowPipeline.Command
import RowPipeline.Proofs.Expression.Catalogue
import RowPipeline.Proofs.Expression.MarkedText

/-!
# The command that checks

A check accepts a text only if the text is read (`parse_of_isAccepted`), so what it reports is about the tree
that an evaluation works out.

* The variables that it lists are the names of the tree (`namesOf_of_parse`). With a number for each of them an
  evaluation fails in its numbers only, and without one of them it fails (`runCheck_variables`).
* The note that a text will not be evaluated stands there iff the text has no marker. An evaluation leaves a
  text alone iff it has no marker and is not closed (`evaluate_eq_self_iff`), so the note is right about every
  text but the closed ones without marker (`runCheck_note_iff`).
-/

namespace RowPipeline

/-- A failure of the numbers is a division by zero, or none of the catalogue. -/
theorem Failure.kind?_of_isNumeric {failure : Failure} (h : failure.isNumeric) :
    failure.kind? = none ∨ failure.kind? = some .divisionByZero := by
  cases failure with
  | raised kind message => cases h
  | arithmetic cause =>
    cases cause with
    | divisionByZero source => exact Or.inr rfl
    | _ => cases h
  | _ => exact Or.inl rfl

namespace Expression

variable {context : Record} {allow : List Key} {field : Key} {s : String} {tree : Tree} {failure : Failure}

/-! ### What an evaluation leaves alone -/

/-- **A text comes back unchanged** iff it has no marker and is not closed. -/
theorem evaluate_eq_self_iff (hf : field ≠ timestamp) :
    (evaluate context [] field (.text s)).outcome = .ok (.text s) ↔
      hasMarker s = false ∧ isClosed s = false := by
  have hneeds : needsEvaluation (.text s) = false ↔ hasMarker s = false ∧ isClosed s = false :=
    Bool.or_eq_false_iff
  rw [← hneeds]
  constructor
  · intro h
    by_contra hn
    obtain ⟨a, ha⟩ := evaluateWith_number hf (by simpa using hn) rfl h
    rcases a with _ | (n | x) <;> cases ha
  · intro h
    have hinert : (needsEvaluation (.text s) && allows [] field) = false := by rw [h]; rfl
    rw [evaluate, evaluateWith_of_inert hf hinert]
    rfl

/-! ### Failures of a text whose names have numbers -/

theorem finish_isNumeric {values : List Number} (hlength : tree.names.length ≤ values.length)
    (h : (finish s field tree values).outcome = .error failure) : failure.isNumeric := by
  have hn : (tree.fill values).1.names = [] := Tree.names_fill_eq_nil hlength
  rw [finish_outcome] at h
  rcases bind_eq_error_iff.mp h with hr | ⟨source, -, h⟩
  · exact renderBare_error hr
  rcases bind_eq_error_iff.mp h with hc | ⟨a, -, hfin⟩
  · rcases Tree.compute_error hc with hnum | ⟨n, hmem, -⟩
    · exact hnum
    · rw [hn] at hmem
      cases hmem
  · exact Number.finalize_error hfin

/-- **A text that is read, with numbers for its names**, fails in its numbers only. -/
theorem evaluateWith_isNumeric {resolve : String → String → Traced Number} (hex : Examined allow field s)
    (hp : Tree.parse (body s) = .ok tree)
    (hnames : ∀ name, Mentions tree name → ∃ a, (resolve s name).outcome = .ok a)
    (h : (evaluateWith resolve context allow field (.text s)).outcome = .error failure) :
    failure.isNumeric := by
  by_cases hc : isClosed s
  · rw [evaluateWith_of_closed hex.evaluated hex.allowed hc] at h
    exact evaluateClosed_error hc (map_eq_error_iff.mp h)
  have hread : ReadsAs field s tree := hex.readsAs (by simpa using hc) hp
  rw [evaluateWith_of_tree hread hex.allowed] at h
  rcases Traced.bind_error_iff.mp h with hops | ⟨values, hvalues, h⟩
  · rcases resolveOperands_error hops with hnum | ⟨op, hop, hfail⟩
    · exact hnum
    · obtain ⟨a, ha⟩ := hnames op.1 (mentions_of_operand hop)
      rw [ha] at hfail
      cases hfail
  · obtain ⟨_, hgiven, rfl⟩ := resolveOperands_ok_iff.mp hvalues
    have hlength : tree.names.length ≤ values.length := by
      rw [← length_operands, hgiven.length_eq]
    rw [Traced.outcome_map] at h
    exact finish_isNumeric hlength (map_eq_error_iff.mp h)

end Expression

namespace Command

open Expression

variable {context : Record} {field : Key} {s : String} {tree : Tree} {names : List String}
  {out errors : List OutputLine}

/-! ### What a check accepts -/

/-- What is accepted is read: a closed text, too, unless a numeral in it has too many digits, and then the
check fails. -/
theorem parse_of_isAccepted (h : isAccepted s = .ok true) : ∃ tree, Tree.parse (body s) = .ok tree := by
  obtain ⟨expression, hexpression, haccepted⟩ := bind_eq_ok_iff.mp h
  obtain ⟨read, hread, hshape⟩ := bind_eq_ok_iff.mp hexpression
  have haccepted : (expression || isClosed s) = true := Except.ok.inj haccepted
  cases hp : Tree.parse (body s) with
  | ok tree => exact ⟨tree, rfl⟩
  | error failure =>
    exfalso
    rw [tryParse, hp] at hread
    by_cases hc : isClosed s
    · obtain rfl := parse_error_of_closed hc hp
      cases hread
    · have hunread : read = none := by
        rcases Tree.parse_error hp with rfl | ⟨ch, p, rfl⟩ | ⟨e, rfl⟩
        · cases hread
        · exact (Except.ok.inj hread).symm
        · exact (Except.ok.inj hread).symm
      rw [hunread] at hshape
      obtain rfl : false = expression := Except.ok.inj hshape
      exact hc haccepted

theorem namesOf_of_parse (hp : Tree.parse (body s) = .ok tree) :
    namesOf s = .ok (tree.names.map Prod.fst).eraseDups := by
  rw [namesOf, tryParse, hp]
  rfl

theorem runCheck_of_isAccepted (h : isAccepted s = .ok true) (hnames : namesOf s = .ok names) :
    runCheck s = .lines 0 (describe s names) [] := by
  simp only [runCheck, h, hnames]
  rfl

/-- **The report on a text that is accepted**: its tree has the names that are listed. -/
theorem runCheck_accepted (h : runCheck s = .lines 0 out errors) :
    ∃ tree names, Tree.parse (body s) = .ok tree ∧ namesOf s = .ok names ∧ out = describe s names ∧
      ∀ name, name ∈ names ↔ Mentions tree name := by
  cases haccepted : isAccepted s with
  | error failure =>
    simp only [runCheck, haccepted] at h
    cases h
  | ok accepted =>
    cases accepted with
    | false =>
      simp only [runCheck, haccepted] at h
      cases h
    | true =>
      obtain ⟨tree, hp⟩ := parse_of_isAccepted haccepted
      have hnames := namesOf_of_parse hp
      refine ⟨tree, _, hp, hnames, ?_, ?_⟩
      · rw [runCheck_of_isAccepted haccepted hnames] at h
        injection h with _ hout _
        exact hout.symm
      · intro name
        rw [List.mem_eraseDups, Mentions]

/-! ### The note -/

/-- The line that says of a text that it will not be evaluated. -/
def note : OutputLine :=
  { text := "  (no `=` marker: it will not be evaluated)", color := some .yellow }

theorem note_mem_describe_iff : note ∈ describe s names ↔ hasMarker s = false := by
  have hverdict : ∀ text, note ≠ { text, color := some .green } := by
    intro text h
    cases congrArg OutputLine.color h
  have hvariables : ∀ text, note ≠ { text } := by
    intro text h
    cases congrArg OutputLine.color h
  unfold describe
  rw [List.mem_append, List.mem_append, List.mem_singleton]
  constructor
  · rintro ((h | h) | h)
    · exact absurd h (hverdict _)
    · split at h
      · cases h
      · simpa using ‹¬ hasMarker s›
    · split at h
      · cases h
      · exact absurd (List.mem_singleton.mp h) (hvariables _)
  · intro hm
    rw [hm]
    exact Or.inl (Or.inr (List.mem_singleton.mpr rfl))

/-- **What the note says.** A text that is accepted carries the note iff it has no marker. That is right, and
the text with the note is the one that an evaluation leaves alone, unless the text is closed and has no marker:
such a text is evaluated all the same. -/
theorem runCheck_note_iff (context : Record) (field : Key) (s : String) (out errors : List OutputLine)
    (hf : field ≠ timestamp) (h : runCheck s = .lines 0 out errors) :
    (note ∈ out ↔ hasMarker s = false) ∧
      ((note ∈ out ↔ (evaluate context [] field (.text s)).outcome = .ok (.text s)) ↔
        ¬ (isClosed s ∧ hasMarker s = false)) := by
  obtain ⟨-, names, -, -, rfl, -⟩ := runCheck_accepted h
  have hnote : note ∈ describe s names ↔ hasMarker s = false := note_mem_describe_iff
  have hleft : (evaluate context [] field (.text s)).outcome = .ok (.text s) ↔
      hasMarker s = false ∧ isClosed s = false := evaluate_eq_self_iff hf
  refine ⟨hnote, ?_⟩
  rw [hnote, hleft]
  cases isClosed s <;> cases hasMarker s <;> simp

/-- A product with a name and no marker is left alone, as the note says. -/
theorem runCheck_note_of_open :
    Scalar.text "result" ≠ timestamp ∧
      runCheck "3*carbon" = .lines 0 (describe "3*carbon" ["carbon"]) [] ∧
      note ∈ describe "3*carbon" ["carbon"] ∧
      (evaluate ∅ [] (.text "result") (.text "3*carbon")).outcome = .ok (.text "3*carbon") := by
  have hf : Scalar.text "result" ≠ timestamp := by decide
  have hcheck : runCheck "3*carbon" = .lines 0 (describe "3*carbon" ["carbon"]) [] :=
    runCheck_of_isAccepted (by cbv) (by cbv)
  obtain ⟨hnote, hagree⟩ := runCheck_note_iff ∅ (.text "result") "3*carbon" _ [] hf hcheck
  have hmem : note ∈ describe "3*carbon" ["carbon"] := hnote.mpr (by decide)
  exact ⟨hf, hcheck, hmem, (hagree.mpr (by decide)).mp hmem⟩

/-- **A closed text without marker** is said not to be evaluated, and is. -/
theorem runCheck_note_of_closed :
    ∃ out, runCheck "2*3" = .lines 0 out [] ∧ note ∈ out ∧
      (evaluate ∅ [] (.text "result") (.text "2*3")).outcome = .ok (.int 6) ∧
      ¬ (note ∈ out ↔ (evaluate ∅ [] (.text "result") (.text "2*3")).outcome = .ok (.text "2*3")) := by
  have hcheck : runCheck "2*3" = .lines 0 (describe "2*3" []) [] :=
    runCheck_of_isAccepted (by cbv) (by cbv)
  have hmem : note ∈ describe "2*3" [] := note_mem_describe_iff.mpr (by decide)
  have hvalue : (evaluate ∅ [] (.text "result") (.text "2*3")).outcome = .ok (.int 6) := by
    have hproduct : evaluateClosed "2*3" = .ok (some (.int 6)) := by decide +kernel
    rw [evaluate, evaluateWith_of_closed (by decide) rfl (by decide), Traced.outcome_lift, hproduct]
    rfl
  refine ⟨_, hcheck, hmem, hvalue, fun hagree => ?_⟩
  rw [hagree.mp hmem] at hvalue
  cases hvalue

/-! ### The variables -/

/-- **A check lists what an evaluation needs.** With a whole number or a finite double for every listed name, an
evaluation of a text with marker gives neither an error of its shape nor one of a name; if a listed name has no
value, the evaluation fails. -/
theorem runCheck_variables (context : Record) (field : Key) (s : String) (out errors : List OutputLine)
    (hf : field ≠ timestamp) (hm : hasMarker s) (h : runCheck s = .lines 0 out errors) :
    ∃ names, namesOf s = .ok names ∧ out = describe s names ∧
      ((∀ name ∈ names, ∃ a : Number, a.isFinite ∧ context.get? (.text name) = some (.ofNumber a)) →
        ∀ failure, (evaluate context [] field (.text s)).outcome = .error failure →
          failure.kind? ≠ some .wrongArithmeticExpression ∧ failure.kind? ≠ some .missingVariable ∧
            failure.kind? ≠ some .nonNumericVariable) ∧
      ((∃ name ∈ names, context.get? (.text name) = none ∨ context.get? (.text name) = some .null) →
        ∃ failure, (evaluate context [] field (.text s)).outcome = .error failure) := by
  obtain ⟨tree, names, hp, hnames, hout, hlisted⟩ := runCheck_accepted h
  have hex : Examined [] field s := ⟨hf, needsEvaluation_iff.mpr ⟨s, rfl, Or.inl hm⟩, rfl⟩
  refine ⟨names, hnames, hout, ?_, ?_⟩
  · intro hnumbers failure hfail
    have hresolved : ∀ name, Mentions tree name →
        ∃ a, (resolve context [] [field] s name).outcome = .ok a := by
      intro name hmention
      obtain ⟨a, ha, hget⟩ := hnumbers name ((hlisted name).mpr hmention)
      exact ⟨a.normalize, resolve_of_number hget ha⟩
    have hnum : failure.isNumeric := evaluateWith_isNumeric hex hp hresolved hfail
    rcases Failure.kind?_of_isNumeric hnum with hk | hk <;> rw [hk] <;> decide
  · rintro ⟨name, hname, hmissing⟩
    have hmention : Mentions tree name := (hlisted name).mp hname
    have hunresolved : ∀ a, (resolve context [] [field] s name).outcome ≠ .ok a := by
      intro a ha
      rcases hmissing with hget | hget
      · rw [resolve_of_none hget] at ha
        cases ha
      · rw [resolve_of_plain hget rfl] at ha
        cases ha
    have hopen : isClosed s = false := unclosed_of_mentions hp hmention
    cases hout : (evaluate context [] field (.text s)).outcome with
    | error failure => exact ⟨failure, rfl⟩
    | ok v =>
      obtain ⟨a, ha⟩ := evaluateWith_mentions (hex.readsAs hopen hp) rfl hmention hout
      exact absurd ha (hunresolved a)

/-- A quotient of two names, one of them quoted: with numbers for both it may still divide by zero, and without
the second one it fails. -/
theorem runCheck_variables_of_quotient :
    let idle : Record := ⟨[(.text "energy/year", .int 3), (.text "cores", .int 0)], by decide⟩
    let unset : Record := ⟨[(.text "energy/year", .int 3), (.text "cores", .null)], by decide⟩
    Scalar.text "result" ≠ timestamp ∧ hasMarker "=\"energy/year\"/cores" ∧
      runCheck "=\"energy/year\"/cores" =
        .lines 0 (describe "=\"energy/year\"/cores" ["energy/year", "cores"]) [] ∧
      (∀ failure, (evaluate idle [] (.text "result") (.text "=\"energy/year\"/cores")).outcome =
        .error failure → failure.kind? ≠ some .missingVariable) ∧
      ∃ failure, (evaluate unset [] (.text "result") (.text "=\"energy/year\"/cores")).outcome =
        .error failure := by
  intro idle unset
  have hf : Scalar.text "result" ≠ timestamp := by decide
  have hm : hasMarker "=\"energy/year\"/cores" := by decide
  have hnames : namesOf "=\"energy/year\"/cores" = .ok ["energy/year", "cores"] := by cbv
  have hcheck : runCheck "=\"energy/year\"/cores" =
      .lines 0 (describe "=\"energy/year\"/cores" ["energy/year", "cores"]) [] :=
    runCheck_of_isAccepted (by cbv) hnames
  refine ⟨hf, hm, hcheck, ?_, ?_⟩
  · obtain ⟨names, hlisted, -, hnumbers, -⟩ := runCheck_variables idle _ _ _ [] hf hm hcheck
    obtain rfl := Except.ok.inj (hnames.symm.trans hlisted)
    intro failure hfail
    refine (hnumbers ?_ failure hfail).2.1
    intro name hname
    rcases List.mem_pair.mp hname with rfl | rfl
    · exact ⟨.int 3, rfl, rfl⟩
    · exact ⟨.int 0, rfl, rfl⟩
  · obtain ⟨names, hlisted, -, -, hmissing⟩ := runCheck_variables unset _ _ _ [] hf hm hcheck
    obtain rfl := Except.ok.inj (hnames.symm.trans hlisted)
    exact hmissing ⟨"cores", by decide, Or.inr rfl⟩

end Command

end RowPipeline
