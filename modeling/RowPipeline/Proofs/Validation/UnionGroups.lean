import RowPipeline.Proofs.Validation.UnionPaths
import Mathlib.Data.List.FinRange
import Mathlib.Order.WellFounded

/-!
# Groups of union issues

The *union path* of an issue is what stands before the first tag of its location, and an issue whose location
holds no tag has none. `Issue.InUnion` says where the tag is in terms of the value alone (`Value.TagBetween`), and
the walk of `splitAtTag` finds just that place (`Value.splitAtTag_eq_some_iff`).

One pass over the issues keeps the union paths met so far. What becomes of an issue depends on the union paths
of the issues before it only (`Issue.reported`), so the report is the list of what becomes of each issue, in
their order (`Issue.mergeUnionsFrom_eq_filterMap`). It follows that the issues without a union path stay as they
are and that each union path is reported once, by its first issue (`Issue.mergeUnions_groups`).
-/

namespace RowPipeline

/-! ### The first tag of a location -/

namespace Value

variable {v next : Value} {part : PathPart} {missing : Bool} {loc front back : Path}

/-- The part of a value at a path. -/
def at? (v : Value) (path : Path) : Option Value := path.foldlM step? v

@[simp] theorem at?_nil (v : Value) : v.at? [] = some v := rfl

theorem at?_cons (v : Value) (part : PathPart) (path : Path) :
    v.at? (part :: path) = (v.step? part).bind fun next => next.at? path := rfl

/-- A location holds its first tag between two paths: the path in front leads to a part of the value, and that part
has no entry of the name that comes next. A name that a dictionary lacks is no tag at the end of the location of a
missing entry. -/
def TagBetween (v : Value) (missing : Bool) (loc front back : Path) : Prop :=
  ∃ name node, loc = front ++ .name name :: back ∧ v.at? front = some node ∧
    node.step? (.name name) = none ∧ ¬ (missing = true ∧ back = [] ∧ ∃ es, node = .dict es)

theorem not_tagBetween_nil : ¬ v.TagBetween missing [] front back := by
  rintro ⟨name, node, hloc, -⟩
  cases front <;> cases hloc

/-- A tag behind a step of the value is a tag of the part there. -/
theorem tagBetween_cons_of_step (h : v.step? part = some next) :
    v.TagBetween missing (part :: loc) front back ↔
      ∃ front', front = part :: front' ∧ next.TagBetween missing loc front' back := by
  constructor
  · rintro ⟨name, node, hloc, hnode, hname, hmissing⟩
    cases front with
    | nil =>
      obtain ⟨rfl, rfl⟩ := List.cons.inj hloc
      obtain rfl : v = node := Option.some.inj hnode
      rw [h] at hname
      cases hname
    | cons first front' =>
      obtain ⟨rfl, hrest⟩ := List.cons.inj hloc
      rw [at?_cons, h] at hnode
      exact ⟨front', rfl, name, node, hrest, hnode, hname, hmissing⟩
  · rintro ⟨front', rfl, name, node, rfl, hnode, hname, hmissing⟩
    exact ⟨name, node, rfl, by rw [at?_cons, h]; exact hnode, hname, hmissing⟩

/-- A step that leads nowhere is the tag itself, or there is none. -/
theorem tagBetween_cons_of_no_step (h : v.step? part = none) :
    v.TagBetween missing (part :: loc) front back ↔
      front = [] ∧ back = loc ∧ (∃ name, part = .name name) ∧
        ¬ (missing = true ∧ loc = [] ∧ ∃ es, v = .dict es) := by
  constructor
  · rintro ⟨name, node, hloc, hnode, -, hmissing⟩
    cases front with
    | nil =>
      obtain ⟨rfl, rfl⟩ := List.cons.inj hloc
      obtain rfl : v = node := Option.some.inj hnode
      exact ⟨rfl, rfl, ⟨name, rfl⟩, hmissing⟩
    | cons first front' =>
      obtain ⟨rfl, -⟩ := List.cons.inj hloc
      rw [at?_cons, h] at hnode
      cases hnode
  · rintro ⟨rfl, rfl, ⟨name, rfl⟩, hmissing⟩
    exact ⟨name, v, rfl, rfl, h, hmissing⟩

theorem splitAtTag_eq_some_iff_of_no_step (h : v.step? part = none) :
    v.splitAtTag missing (part :: loc) = some (front, back) ↔
      front = [] ∧ back = loc ∧ (∃ name, part = .name name) ∧
        ¬ (missing = true ∧ loc = [] ∧ ∃ es, v = .dict es) := by
  have hpair : some (([], loc) : Path × Path) = some (front, back) ↔ front = [] ∧ back = loc := by
    rw [Option.some_inj, Prod.mk_inj]
    exact and_congr eq_comm eq_comm
  rw [splitAtTag.eq_def]
  simp only [h]
  cases part with
  | index i => simp
  | name s =>
    cases v with
    | scalar a => simp [hpair]
    | list vs => simp [hpair]
    | dict es =>
      by_cases hmissing : missing = true ∧ loc = []
      · simp [hmissing]
      · simp [hmissing, hpair]

/-- **The walk finds the first tag**, and nothing where there is none. -/
theorem splitAtTag_eq_some_iff :
    v.splitAtTag missing loc = some (front, back) ↔ v.TagBetween missing loc front back := by
  induction loc generalizing v front with
  | nil =>
    have hnone : v.splitAtTag missing [] = none := by cases v <;> rfl
    rw [hnone]
    exact iff_of_false (Option.some_ne_none _).symm not_tagBetween_nil
  | cons part loc ih =>
    cases hstep : v.step? part with
    | none => rw [splitAtTag_eq_some_iff_of_no_step hstep, tagBetween_cons_of_no_step hstep]
    | some next =>
      rw [splitAtTag_of_step missing hstep, tagBetween_cons_of_step hstep, Option.map_eq_some_iff]
      constructor
      · rintro ⟨⟨front', back'⟩, hsplit, heq⟩
        obtain ⟨rfl, rfl⟩ := Prod.mk.inj heq
        exact ⟨front', rfl, ih.mp hsplit⟩
      · rintro ⟨front', rfl, htag⟩
        exact ⟨(front', back), ih.mpr htag, rfl⟩

end Value

namespace Issue

variable {v : Value} {issue : Issue} {front back front' back' : Path} {seen seen' : List Path}

/-! ### The union path of an issue -/

/-- An issue belongs to the union at a path: its location goes on from there with the tag of a member. -/
def InUnion (v : Value) (issue : Issue) (front back : Path) : Prop :=
  v.TagBetween (issue.code == missingCode) issue.path front back

/-- The path of the union that an issue belongs to. -/
def unionPath? (v : Value) (issue : Issue) : Option Path :=
  (v.splitAtTag (issue.code == missingCode) issue.path).map Prod.fst

theorem unionPath?_eq_some_iff : unionPath? v issue = some front ↔ ∃ back, InUnion v issue front back := by
  rw [unionPath?, Option.map_eq_some_iff]
  constructor
  · rintro ⟨⟨_, back⟩, hsplit, rfl⟩
    exact ⟨back, Value.splitAtTag_eq_some_iff.mp hsplit⟩
  · rintro ⟨back, htag⟩
    exact ⟨(front, back), Value.splitAtTag_eq_some_iff.mpr htag, rfl⟩

/-- An issue belongs to one union only. -/
theorem InUnion.unique (h : InUnion v issue front back) (h' : InUnion v issue front' back') :
    front = front' ∧ back = back' := by
  have hsplit := Value.splitAtTag_eq_some_iff.mpr h
  rw [Value.splitAtTag_eq_some_iff.mpr h'] at hsplit
  exact Prod.mk.inj (Option.some.inj hsplit).symm

/-! ### One pass over the issues -/

/-- What becomes of an issue after unions were reported at the paths `seen`. -/
def reported (v : Value) (seen : List Path) (issue : Issue) : Option Issue :=
  match v.splitAtTag (issue.code == missingCode) issue.path with
  | none => some issue
  | some (front, back) => if front ∈ seen then none else some ⟨front ++ back, issue.message, unionCode⟩

/-- An issue that belongs to no union stays; any other one is left out, or it loses its tag. -/
theorem reported_cases (v : Value) (seen : List Path) (issue : Issue) :
    ((∀ front back, ¬ InUnion v issue front back) ∧ reported v seen issue = some issue) ∨
      ∃ front back, InUnion v issue front back ∧ reported v seen issue =
        if front ∈ seen then none else some ⟨front ++ back, issue.message, unionCode⟩ := by
  cases hsplit : v.splitAtTag (issue.code == missingCode) issue.path with
  | none =>
    refine Or.inl ⟨fun front back htag => ?_, by simp only [reported, hsplit]⟩
    rw [Value.splitAtTag_eq_some_iff.mpr htag] at hsplit
    cases hsplit
  | some parts =>
    obtain ⟨front, back⟩ := parts
    exact Or.inr ⟨front, back, Value.splitAtTag_eq_some_iff.mp hsplit, by simp only [reported, hsplit]⟩

/-- An issue is left out iff its union has been reported. -/
theorem reported_eq_none_iff :
    reported v seen issue = none ↔ ∃ front back, InUnion v issue front back ∧ front ∈ seen := by
  rcases reported_cases v seen issue with ⟨hno, hsame⟩ | ⟨front, back, htag, hunion⟩
  · rw [hsame]
    exact iff_of_false (Option.some_ne_none _) fun ⟨front, back, htag, _⟩ => hno front back htag
  · rw [hunion]
    constructor
    · intro hleft
      by_cases hseen : front ∈ seen
      · exact ⟨front, back, htag, hseen⟩
      · rw [if_neg hseen] at hleft
        cases hleft
    · rintro ⟨front', back', htag', hseen⟩
      obtain ⟨rfl, -⟩ := htag.unique htag'
      rw [if_pos hseen]

/-- An issue that is reported is as it was, or it has lost its tag and has the code of unions. -/
theorem reported_eq_some {out : Issue} (h : reported v seen issue = some out) :
    ((∀ front back, ¬ InUnion v issue front back) ∧ out = issue) ∨
      ∃ front back, InUnion v issue front back ∧ out = ⟨front ++ back, issue.message, unionCode⟩ := by
  rcases reported_cases v seen issue with ⟨hno, hsame⟩ | ⟨front, back, htag, hunion⟩
  · rw [hsame] at h
    exact Or.inl ⟨hno, (Option.some.inj h).symm⟩
  · rw [hunion] at h
    split at h
    · cases h
    · exact Or.inr ⟨front, back, htag, (Option.some.inj h).symm⟩

/-- Only the set of the reported unions matters. -/
theorem reported_congr (h : ∀ path, path ∈ seen ↔ path ∈ seen') :
    reported v seen issue = reported v seen' issue := by
  unfold reported
  simp only [h]

/-- One step of the pass: an issue leaves what becomes of it, and its union path for those behind it. -/
theorem mergeUnionsFrom_cons (v : Value) (seen : List Path) (issue : Issue) (rest : List Issue) :
    ∃ seen', (∀ path, path ∈ seen' ↔ path ∈ seen ++ (unionPath? v issue).toList) ∧
      mergeUnionsFrom v seen (issue :: rest) =
        (reported v seen issue).toList ++ mergeUnionsFrom v seen' rest := by
  rw [mergeUnionsFrom, reported, unionPath?]
  cases hsplit : v.splitAtTag (issue.code == missingCode) issue.path with
  | none => exact ⟨seen, by simp, rfl⟩
  | some parts =>
    obtain ⟨front, back⟩ := parts
    by_cases hseen : front ∈ seen
    · exact ⟨seen, by simpa using hseen, by simp [hseen]⟩
    · exact ⟨seen ++ [front], by simp, by simp [hseen]⟩

/-- What the first of some places gives comes first. -/
theorem filterMap_finRange_succ {α : Type} {n : Nat} (f : Fin (n + 1) → Option α) :
    (List.finRange (n + 1)).filterMap f =
      (f 0).toList ++ (List.finRange n).filterMap fun i => f i.succ := by
  rw [List.finRange_succ, List.filterMap_eq_flatMap_toList, List.flatMap_cons, ← List.filterMap_eq_flatMap_toList,
    List.filterMap_map]
  rfl

/-- **The whole pass**: the report is what becomes of each issue after the union paths of those before it. -/
theorem mergeUnionsFrom_eq_filterMap (v : Value) (seen : List Path) (issues : List Issue) :
    mergeUnionsFrom v seen issues =
      (List.finRange issues.length).filterMap fun i : Fin issues.length =>
        reported v (seen ++ (issues.take i).filterMap (unionPath? v)) issues[i] := by
  induction issues generalizing seen with
  | nil => rfl
  | cons issue rest ih =>
    obtain ⟨seen', hseen, hstep⟩ := mergeUnionsFrom_cons v seen issue rest
    have hhead : reported v (seen ++ ((issue :: rest).take 0).filterMap (unionPath? v)) issue =
        reported v seen issue := by rw [List.take_zero, List.filterMap_nil, List.append_nil]
    have htail : ∀ i : Fin rest.length,
        reported v (seen ++ ((issue :: rest).take (i + 1)).filterMap (unionPath? v)) rest[i] =
          reported v (seen' ++ (rest.take i).filterMap (unionPath? v)) rest[i] := by
      intro i
      refine reported_congr fun path => ?_
      have hbefore : ((issue :: rest).take (i + 1)).filterMap (unionPath? v) =
          (unionPath? v issue).toList ++ (rest.take i).filterMap (unionPath? v) := by
        rw [List.take_succ_cons, List.filterMap_eq_flatMap_toList, List.flatMap_cons,
          ← List.filterMap_eq_flatMap_toList]
      rw [hbefore, ← List.append_assoc, List.mem_append, ← hseen path, ← List.mem_append]
    rw [hstep, ih]
    refine Eq.trans ?_ (filterMap_finRange_succ _).symm
    exact congrArg₂ _ (congrArg _ hhead.symm) (List.filterMap_congr fun i _ => (htail i).symm)

/-! ### The groups -/

section

variable {issues : List Issue} {i : Fin issues.length}

/-- What becomes of one of the issues. -/
def reportAt (v : Value) (issues : List Issue) (i : Fin issues.length) : Option Issue :=
  reported v ((issues.take i).filterMap (unionPath? v)) issues[i]

/-- The union paths of the first issues are those that one of them belongs to. -/
theorem mem_filterMap_take {n : Nat} {path : Path} : path ∈ (issues.take n).filterMap (unionPath? v) ↔
    ∃ j : Fin issues.length, j < n ∧ ∃ back, InUnion v issues[j] path back := by
  simp only [List.mem_filterMap, List.mem_take_iff_getElem, unionPath?_eq_some_iff]
  constructor
  · rintro ⟨_, ⟨j, hj, rfl⟩, htag⟩
    exact ⟨⟨j, by omega⟩, show j < n by omega, htag⟩
  · rintro ⟨j, hj, htag⟩
    exact ⟨issues[j], ⟨j, by omega, rfl⟩, htag⟩

/-- An issue is left out iff an earlier one belongs to the same union. -/
theorem reportAt_eq_none_iff : reportAt v issues i = none ↔
    ∃ j < i, ∃ front back back', InUnion v issues[i] front back ∧ InUnion v issues[j] front back' := by
  rw [reportAt, reported_eq_none_iff]
  simp only [mem_filterMap_take]
  constructor
  · rintro ⟨front, back, htag, j, hj, back', htag'⟩
    exact ⟨j, hj, front, back, back', htag, htag'⟩
  · rintro ⟨j, hj, front, back, back', htag, htag'⟩
    exact ⟨front, back, htag, j, hj, back', htag'⟩

/-- Of the issues that belong to a union the first is reported, and any other one comes behind it. -/
theorem existsUnique_reportAt (h : ∃ i : Fin issues.length, ∃ back, InUnion v issues[i] front back) :
    ∃! i : Fin issues.length, (∃ back, InUnion v issues[i] front back) ∧ (reportAt v issues i).isSome := by
  obtain ⟨i, ⟨back, htag⟩, hfirst⟩ :=
    wellFounded_lt.has_min { i : Fin issues.length | ∃ back, InUnion v issues[i] front back } h
  have hreported : (reportAt v issues i).isSome := by
    rw [Option.isSome_iff_ne_none, Ne, reportAt_eq_none_iff]
    rintro ⟨j, hj, front', back', back'', htag', htag''⟩
    obtain ⟨rfl, -⟩ := htag.unique htag'
    exact hfirst j ⟨back'', htag''⟩ hj
  refine ⟨i, ⟨⟨back, htag⟩, hreported⟩, ?_⟩
  rintro j ⟨⟨back', htag'⟩, hj⟩
  have hle : i ≤ j := not_lt.mp (hfirst j ⟨back', htag'⟩)
  by_contra hne
  have hlt : i < j := lt_of_le_of_ne hle (Ne.symm hne)
  have hleft : reportAt v issues j = none :=
    reportAt_eq_none_iff.mpr ⟨i, hlt, front, back', back, htag', htag⟩
  rw [hleft] at hj
  cases hj

end

/-- **Unions are grouped and nothing else changes.** The report is what becomes of each issue, in their order. An
issue is left out iff an earlier one belongs to the same union. Any other issue is reported, as it is where it
belongs to no union, and else without its tag, with its message and under the code of unions. So of the issues that
belong to a union exactly one is reported. -/
theorem mergeUnions_groups (v : Value) (issues : List Issue) :
    ∃ report : Fin issues.length → Option Issue,
      mergeUnions v issues = (List.finRange issues.length).filterMap report ∧
      (∀ i, report i = none ↔
        ∃ j < i, ∃ front back back', InUnion v issues[i] front back ∧ InUnion v issues[j] front back') ∧
      (∀ i out, report i = some out →
        ((∀ front back, ¬ InUnion v issues[i] front back) ∧ out = issues[i]) ∨
          ∃ front back, InUnion v issues[i] front back ∧
            out = ⟨front ++ back, issues[i].message, unionCode⟩) ∧
      ∀ front, (∃ i : Fin issues.length, ∃ back, InUnion v issues[i] front back) →
        ∃! i : Fin issues.length, (∃ back, InUnion v issues[i] front back) ∧ (report i).isSome := by
  refine ⟨reportAt v issues, mergeUnionsFrom_eq_filterMap v [] issues, fun i => reportAt_eq_none_iff, ?_, ?_⟩
  · intro i out h
    exact reported_eq_some h
  · intro front h
    exact existsUnique_reportAt h

end Issue

end RowPipeline
