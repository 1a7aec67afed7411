import RowPipeline.Proofs.Expression.Catalogue
import RowPipeline.Proofs.Expression.Locality
import RowPipeline.Proofs.Record.Configs

/-!
# Evaluating a config field by field

An allowed field of a config is checked for its shape and then evaluated as if every field were allowed
(`fieldOutcome`); no other field of the config has a part in that. So a config fails as the first of its allowed
fields that fails, and otherwise it holds its fields in their order, the allowed ones as they come out on their
own (`evaluateAllowed_outcome`).

The check of the shape refuses a text whose marker says what its tree does not. It cannot tell of a text with a
run of too many digits (`checkShape_error_iff`), although such a text has a value, itself, if it has no marker.
-/

namespace RowPipeline

open Expression Text

namespace Record

/-- What an allowed field of a config comes to against a row, if the text has the shape that its marker says. -/
def fieldOutcome (row : Record) (e : Key × Value) : Except Failure Value :=
  (checkShape e.1 e.2).bind fun _ => alone row e

variable {config config' row out out' : Record} {allow : List Key} {f : Key} {v x : Value} {s : String}

/-! ### The shape of a text -/

theorem isExpression_error_iff {failure : Failure} : isExpression s = .error failure ↔
    failure = .numeralTooLong ∧ tokenize (body s) = .error .numeralTooLong := by
  rw [← parse_numeralTooLong_iff]
  cases hp : Tree.parse (body s) with
  | ok tree => simp [isExpression, tryParse, hp, bind, Except.bind, pure, Except.pure]
  | error failure =>
    rcases Tree.parse_error hp with rfl | ⟨ch, p, rfl⟩ | ⟨e, rfl⟩
    all_goals simp [isExpression, tryParse, hp, bind, Except.bind, pure, Except.pure, eq_comm]

theorem checkShape_text_error_iff : (∃ failure, checkShape f (.text s) = .error failure) ↔
    isClosed s = false ∧ (isExpression s = .ok (!hasMarker s) ∨ tokenize (body s) = .error .numeralTooLong) := by
  rw [checkShape]
  cases hc : isClosed s with
  | true => simp [pure, Except.pure]
  | false =>
    cases he : isExpression s with
    | error failure =>
      have hlong := (isExpression_error_iff.mp he).2
      simp [hlong, bind, Except.bind]
    | ok b =>
      have hfits : tokenize (body s) ≠ .error .numeralTooLong := fun hlong => by
        cases he.symm.trans (isExpression_error_iff.mpr ⟨rfl, hlong⟩)
      cases b <;> cases hasMarker s <;> simp [hfits, bind, Except.bind, pure, Except.pure]

/-- **The check of a shape** fails for a text that is not closed if the marker disagrees with the tree, or if a
numeral has too many digits. -/
theorem checkShape_error_iff : (∃ failure, checkShape f v = .error failure) ↔
    ∃ s, v = .text s ∧ isClosed s = false ∧
      (isExpression s = .ok (!hasMarker s) ∨ tokenize (body s) = .error .numeralTooLong) := by
  by_cases hv : ∃ s, v = .text s
  · obtain ⟨s, rfl⟩ := hv
    simp [checkShape_text_error_iff]
  · have hok : checkShape f v = .ok v := by
      rw [checkShape]
      · rfl
      · exact fun s hs => hv ⟨s, hs⟩
    rw [hok]
    constructor
    · rintro ⟨failure, h⟩
      cases h
    · rintro ⟨s, hs, -⟩
      exact absurd ⟨s, hs⟩ hv

/-! ### One field -/

/-- An allowed field fails for its shape or for its value. -/
theorem fieldOutcome_error_iff : (∃ failure, fieldOutcome row (f, v) = .error failure) ↔
    (∃ failure, checkShape f v = .error failure) ∨ ∃ failure, alone row (f, v) = .error failure := by
  rw [fieldOutcome]
  cases checkShape f v with
  | error failure => simp [Except.bind]
  | ok shaped => simp [Except.bind]

/-- A field on the list is evaluated as without a list. -/
theorem evaluate_of_mem (hf : f ∈ allow) :
    Expression.evaluate row allow f v = Expression.evaluate row [] f v := by
  have hnames : resolve row allow [f] = resolve row [] [f] := by
    funext expression name
    exact resolve_allow row [f] name allow expression
  have hallowed : allows allow f = allows [] f := by
    rw [allows, List.contains_iff_mem.mpr hf, Bool.or_true]
    rfl
  rw [Expression.evaluate, hnames, evaluateWith_allow hallowed]
  rfl

/-- One step of the pass over a config. -/
theorem evaluateAllowed_step {done : Record} {rest : List (Key × Value)} (hf : f ∈ allow) :
    (evaluateAllowed row allow done ((f, v) :: rest)).outcome =
      (fieldOutcome row (f, v)).bind fun x =>
        (evaluateAllowed row allow (done.settle f v x) rest).outcome := by
  rw [evaluateAllowed, if_pos (by simpa using hf), Traced.outcome_bind, fieldOutcome, alone,
    evaluate_of_mem hf]
  change (checkShape f v).bind _ = _
  cases checkShape f v with
  | error failure => rfl
  | ok shaped =>
    change (_ >>= _ : Traced _).outcome = _
    rw [Traced.outcome_bind]
    rfl

/-- What becomes of a field of a config is what becomes of it on its own. -/
theorem settled_eq (row : Record) (allow : List Key) (e : Key × Value) :
    settled row allow e = if e.1 ∈ allow then kept row e else some e := by
  obtain ⟨f, v⟩ := e
  by_cases hf : f ∈ allow
  · rw [if_pos hf, settled, if_pos (by simpa using hf), evaluate_of_mem hf]
    rfl
  · rw [if_neg hf, settled_of_not_mem hf]

/-! ### The pass -/

/-- **The pass over a config** stops at the first allowed field that fails. -/
theorem evaluateAllowed_outcome (row : Record) (allow : List Key) (rest : List (Key × Value)) (done : Record) :
    ((∀ e ∈ rest, e.1 ∈ allow → ∃ x, fieldOutcome row e = .ok x) ∧
      ∃ out, (evaluateAllowed row allow done rest).outcome = .ok out) ∨
    ∃ before e after failure, rest = before ++ e :: after ∧
      (∀ d ∈ before, d.1 ∈ allow → ∃ x, fieldOutcome row d = .ok x) ∧ e.1 ∈ allow ∧
      fieldOutcome row e = .error failure ∧
      (evaluateAllowed row allow done rest).outcome = .error failure := by
  induction rest generalizing done with
  | nil => exact Or.inl ⟨by simp, done, rfl⟩
  | cons e rest ih =>
    obtain ⟨f, v⟩ := e
    -- the field at hand fails, or the pass goes on with whatever has come out so far
    have hnext : (f ∈ allow ∧ ∃ failure, fieldOutcome row (f, v) = .error failure ∧
          (evaluateAllowed row allow done ((f, v) :: rest)).outcome = .error failure) ∨
        (f ∈ allow → ∃ x, fieldOutcome row (f, v) = .ok x) ∧ ∃ done',
          (evaluateAllowed row allow done ((f, v) :: rest)).outcome =
            (evaluateAllowed row allow done' rest).outcome := by
      by_cases hf : f ∈ allow
      · rw [evaluateAllowed_step hf]
        cases hx : fieldOutcome row (f, v) with
        | error failure => exact Or.inl ⟨hf, failure, rfl, rfl⟩
        | ok x => exact Or.inr ⟨fun _ => ⟨x, rfl⟩, _, rfl⟩
      · exact Or.inr ⟨fun h => absurd h hf, done, by rw [evaluateAllowed, if_neg (by simpa using hf)]⟩
    rcases hnext with ⟨hf, failure, hx, hout⟩ | ⟨hok, done', hstep⟩
    · exact Or.inr ⟨[], (f, v), rest, failure, rfl, by simp, hf, hx, hout⟩
    rw [hstep]
    rcases ih done' with ⟨hrest, hout⟩ | ⟨before, e, after, failure, rfl, hbefore, he, hx, hout⟩
    · exact Or.inl ⟨List.forall_mem_cons.mpr ⟨hok, hrest⟩, hout⟩
    · exact Or.inr ⟨(f, v) :: before, e, after, failure, rfl, List.forall_mem_cons.mpr ⟨hok, hbefore⟩,
        he, hx, hout⟩

theorem evaluateConfig_ok_iff : (∃ out, (config.evaluateConfig row allow).outcome = .ok out) ↔
    ∀ e ∈ config.entries, e.1 ∈ allow → ∃ x, fieldOutcome row e = .ok x := by
  rcases evaluateAllowed_outcome row allow config.entries config with ⟨hall, hout⟩ |
    ⟨before, e, after, failure, he, -, hmem, hx, hout⟩
  · exact ⟨fun _ => hall, fun _ => hout⟩
  · constructor
    · rintro ⟨out, h⟩
      cases h.symm.trans hout
    · intro hall
      obtain ⟨x, hok⟩ := hall e (by simp [he]) hmem
      cases hok.symm.trans hx

theorem evaluateConfig_error {failure : Failure} (h : (config.evaluateConfig row allow).outcome = .error failure) :
    ∃ before e after, config.entries = before ++ e :: after ∧
      (∀ d ∈ before, d.1 ∈ allow → ∃ x, fieldOutcome row d = .ok x) ∧ e.1 ∈ allow ∧
      fieldOutcome row e = .error failure := by
  rcases evaluateAllowed_outcome row allow config.entries config with ⟨-, out, hout⟩ |
    ⟨before, e, after, failure', he, hbefore, hmem, hx, hout⟩
  · cases h.symm.trans hout
  · obtain rfl := Except.error.inj (h.symm.trans hout)
    exact ⟨before, e, after, he, hbefore, hmem, hx⟩

/-- **A config is evaluated field by field.** It has an outcome iff every allowed field has one on its own; then
its fields keep their order, those that are not allowed keep their values, and the allowed ones have the values
that they are evaluated to without a list, or are left out for an undefined value. Otherwise it fails as the first
allowed field that fails. A field fails iff its text is not closed and the marker disagrees with the shape, or a
numeral in it has too many digits, or if its evaluation fails. What becomes of a field is the same in every config
that holds it. -/
theorem evaluateConfig_by_field (config row : Record) (allow : List Key) :
    ((∃ out, (config.evaluateConfig row allow).outcome = .ok out) ↔
      ∀ e ∈ config.entries, e.1 ∈ allow → ∃ x, fieldOutcome row e = .ok x) ∧
    (∀ out, (config.evaluateConfig row allow).outcome = .ok out →
      out.entries = config.entries.filterMap fun e => if e.1 ∈ allow then kept row e else some e) ∧
    (∀ failure, (config.evaluateConfig row allow).outcome = .error failure → ∃ before e after,
      config.entries = before ++ e :: after ∧
        (∀ d ∈ before, d.1 ∈ allow → ∃ x, fieldOutcome row d = .ok x) ∧ e.1 ∈ allow ∧
        fieldOutcome row e = .error failure) ∧
    (∀ f v, (∃ failure, fieldOutcome row (f, v) = .error failure) ↔
      (∃ s, v = .text s ∧ isClosed s = false ∧
        (isExpression s = .ok (!hasMarker s) ∨ tokenize (body s) = .error .numeralTooLong)) ∨
      ∃ failure, (Expression.evaluate row [] f v).outcome = .error failure) ∧
    ∀ (config' out out' : Record) (f : Key), (config.evaluateConfig row allow).outcome = .ok out →
      (config'.evaluateConfig row allow).outcome = .ok out' → config'.get? f = config.get? f →
        out'.get? f = out.get? f := by
  refine ⟨evaluateConfig_ok_iff, fun out h => ?_, fun _ => evaluateConfig_error, fun f v => ?_, ?_⟩
  · rw [entries_evaluateConfig h]
    exact congrArg (List.filterMap · _) (funext (settled_eq row allow))
  · rw [fieldOutcome_error_iff, checkShape_error_iff]
    rfl
  · intro config' out out' f h h' hv
    rw [get?_evaluateConfig_settled h, get?_evaluateConfig_settled h', hv]

/-- A config with an expression, a field of the name that the expression holds, and another text. -/
def scaled (note : String) : Record :=
  ⟨[(.text "coefficient", .text "=2*mem"), (.text "mem", .int 5), (.text "note", .text note)], by simp⟩

/-- A row in which the name has another value. -/
def measured : Record := ⟨[(.text "mem", .int 3)], by decide⟩

theorem fieldOutcome_scaled : fieldOutcome measured (.text "coefficient", .text "=2*mem") = .ok (.int 6) := by
  have hshape : checkShape (.text "coefficient") (.text "=2*mem") = .ok (.text "=2*mem") := by
    have hclosed : isClosed "=2*mem" = false := by decide
    have hmarker : hasMarker "=2*mem" := by decide
    have hexpression : isExpression "=2*mem" = .ok true := by cbv
    simp only [checkShape, hclosed, hmarker, hexpression]
    rfl
  have hsix : alone measured (.text "coefficient", .text "=2*mem") = .ok (.int 6) :=
    alone_of_doubled ⟨by decide, by decide, by decide, by cbv⟩ rfl
  exact bind_eq_ok_iff.mpr ⟨_, hshape, hsix⟩

/-- The name has the number that the row holds, and the texts that are not allowed have no part in that. -/
theorem evaluateConfig_by_field_of_scaled : ∃ out out',
    ((scaled "=as it is").evaluateConfig measured [.text "coefficient"]).outcome = .ok out ∧
    out.entries = [(.text "coefficient", .int 6), (.text "mem", .int 5), (.text "note", .text "=as it is")] ∧
    ((scaled "").evaluateConfig measured [.text "coefficient"]).outcome = .ok out' ∧
    out'.get? (.text "coefficient") = out.get? (.text "coefficient") := by
  have hall : ∀ note, ∀ e ∈ (scaled note).entries, e.1 ∈ [Scalar.text "coefficient"] →
      ∃ x, fieldOutcome measured e = .ok x := by
    intro note e he hmem
    rcases List.mem_cons.mp he with rfl | he
    · exact ⟨_, fieldOutcome_scaled⟩
    · rcases List.mem_cons.mp he with rfl | he
      · exact absurd hmem (by decide)
      · obtain rfl := List.mem_singleton.mp he
        simp at hmem
  obtain ⟨hok, hentries, -, -, hsame⟩ :=
    evaluateConfig_by_field (scaled "=as it is") measured [.text "coefficient"]
  obtain ⟨hok', -⟩ := evaluateConfig_by_field (scaled "") measured [.text "coefficient"]
  obtain ⟨out, hout⟩ := hok.mpr (hall _)
  obtain ⟨out', hout'⟩ := hok'.mpr (hall _)
  refine ⟨out, out', hout, ?_, hout', hsame _ out out' _ hout hout' rfl⟩
  obtain ⟨_, -, hx⟩ := bind_eq_ok_iff.mp fieldOutcome_scaled
  have hkept : kept measured (.text "coefficient", .text "=2*mem") = some (.text "coefficient", .int 6) :=
    kept_of_ok hx
  rw [hentries out hout]
  simp [scaled, hkept]

/-! ### Digits with a percent sign -/

/-- Digits and a percent sign behind them. -/
def percentage (ds : List Char) : String := String.ofList (ds ++ ['%'])

section Percentage

variable {ds : List Char}

theorem mem_percentage (h : ∀ c ∈ ds, isAsciiDigit c) {c : Char} (hc : c ∈ (percentage ds).toList) :
    isAsciiDigit c ∨ c = '%' := by
  rw [percentage, String.toList_ofList, List.mem_append, List.mem_singleton] at hc
  exact hc.imp_left (h c)

theorem isBlank_percentage (h : ∀ c ∈ ds, isAsciiDigit c) : ∀ c ∈ (percentage ds).toList, isBlank c = false := by
  intro c hc
  rcases mem_percentage h hc with hd | rfl
  · exact isBlank_digit hd
  · decide

theorem marker_not_mem_percentage (h : ∀ c ∈ ds, isAsciiDigit c) : marker ∉ (percentage ds).toList := by
  intro hc
  rcases mem_percentage h hc with hd | he
  · exact absurd hd (by decide)
  · exact absurd he (by decide)

theorem hasMarker_percentage (h : ∀ c ∈ ds, isAsciiDigit c) : hasMarker (percentage ds) = false :=
  hasMarker_of_plain (isBlank_percentage h) (marker_not_mem_percentage h)

theorem body_percentage (h : ∀ c ∈ ds, isAsciiDigit c) : body (percentage ds) = ds ++ ['%'] := by
  rw [body_of_plain (isBlank_percentage h) (marker_not_mem_percentage h), percentage, String.toList_ofList]

theorem isClosed_percentage (h : ∀ c ∈ ds, isAsciiDigit c) : isClosed (percentage ds) = false := by
  rw [isClosed, body_percentage h]
  cases ds with
  | nil => decide
  | cons d ds =>
    rw [isClosedFrom_number_digits (isBlank_digit (h d (by simp))) fun c hc => isDigit_ascii (h c hc)]
    decide

/-- Whether it is an expression cannot be told if it has too many digits. -/
theorem isExpression_percentage (h : ∀ c ∈ ds, isAsciiDigit c) (hlong : Numeral.maxDigits < ds.length) :
    isExpression (percentage ds) = .error .numeralTooLong := by
  refine isExpression_error_iff.mpr ⟨rfl, ?_⟩
  rw [body_percentage h]
  exact Lexer.tokenize_of_long_front (fun c hc => isDigit_ascii (h c hc)) hlong
    (Reads.endsNumber_cons (by decide) (by decide) (by decide))

/-- Without a marker it is its own value. -/
theorem evaluate_percentage (h : ∀ c ∈ ds, isAsciiDigit c) (hf : f ≠ timestamp) :
    Expression.evaluate row allow f (.text (percentage ds)) = pure (.text (percentage ds)) := by
  have hplain : needsEvaluation (.text (percentage ds)) = false := by
    rw [needsEvaluation, hasMarker_percentage h, isClosed_percentage h]
    rfl
  rw [Expression.evaluate, evaluateWith_of_inert hf (by rw [hplain]; rfl)]

end Percentage

/-- **A text with too many digits** in front has no marker, so its value is the text itself; but the check of its
shape fails, though it says nothing else than it is no expression. -/
theorem evaluateConfig_of_long :
    let s := String.ofList (List.replicate (Numeral.maxDigits + 1) '1' ++ ['%'])
    (Record.evaluateConfig ⟨[(.text "note", .text s)], List.nodup_singleton _⟩ Fields.empty
      [.text "note"]).outcome = .error .numeralTooLong ∧
    isClosed s = false ∧ isExpression s ≠ .ok (!hasMarker s) ∧
    (Expression.evaluate Fields.empty [] (.text "note") (.text s)).outcome = .ok (.text s) := by
  intro s
  have hdigits : ∀ c ∈ List.replicate (Numeral.maxDigits + 1) '1', isAsciiDigit c := by
    intro c hc
    rw [List.eq_of_mem_replicate hc]
    decide
  have hclosed : isClosed s = false := isClosed_percentage hdigits
  have hexpression : isExpression s = .error .numeralTooLong := isExpression_percentage hdigits (by simp)
  have hvalue : Expression.evaluate Fields.empty [] (.text "note") (.text s) = pure (.text s) :=
    evaluate_percentage hdigits (by decide)
  have hshape : checkShape (.text "note") (.text s) = .error .numeralTooLong := by
    simp only [checkShape, hclosed, hexpression]
    rfl
  refine ⟨?_, hclosed, by simp [hexpression], ?_⟩
  · rw [evaluateConfig, evaluateAllowed_step (by simp), fieldOutcome, hshape]
    rfl
  · rw [hvalue]
    rfl

end Record

end RowPipeline
