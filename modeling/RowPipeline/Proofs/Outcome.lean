import RowPipeline.Traced
import Mathlib.Tactic.Common

/-!
# Steps that may fail

A sequence of two steps succeeds iff both do (`bind_eq_ok_iff`) and fails as the first one that fails
(`bind_eq_error_iff`); a step whose value is changed afterwards fails as it did (`map_eq_error_iff`). One step
for each item of a list gives the items in order (`mapM_cons_ok`), so lists are worked on one after the other
(`mapM_append_ok`) and two passes over a list are one (`mapM_zipWith_ok`).

With the equations of `Traced` these open every computation of the library. Steps with events have lemmas
of their own (`Traced.bind_ok_iff`, `Traced.bind_error_iff`).
-/

namespace RowPipeline

variable {ε α β : Type} {x : Except ε α}

section Bind

variable {f : α → Except ε β}

theorem bind_eq_ok_iff {b : β} : x.bind f = .ok b ↔ ∃ a, x = .ok a ∧ f a = .ok b := by
  cases x <;> simp [Except.bind]

theorem bind_eq_error_iff {e : ε} :
    x.bind f = .error e ↔ x = .error e ∨ ∃ a, x = .ok a ∧ f a = .error e := by
  cases x <;> simp [Except.bind]

end Bind

section Map

variable {f : α → β}

theorem map_eq_ok_iff {b : β} : x.map f = .ok b ↔ ∃ a, x = .ok a ∧ b = f a := by
  cases x <;> simp [Except.map, eq_comm]

theorem map_eq_error_iff {e : ε} : x.map f = .error e ↔ x = .error e := by
  cases x <;> simp [Except.map]

end Map

section MapM

variable {γ : Type} {f : α → Except ε β} {xs ys : List α} {zs : List β}

theorem mapM_cons_ok {x : α} : (x :: xs).mapM f = .ok zs ↔
    ∃ z rest, f x = .ok z ∧ xs.mapM f = .ok rest ∧ zs = z :: rest := by
  rw [List.mapM_cons]
  constructor
  · intro h
    obtain ⟨z, hz, h⟩ := bind_eq_ok_iff.mp h
    obtain ⟨rest, hrest, h⟩ := bind_eq_ok_iff.mp h
    exact ⟨z, rest, hz, hrest, (Except.ok.inj h).symm⟩
  · rintro ⟨z, rest, hz, hrest, rfl⟩
    exact bind_eq_ok_iff.mpr ⟨z, hz, bind_eq_ok_iff.mpr ⟨rest, hrest, rfl⟩⟩

/-- Where the step for each item succeeds, so does the list. -/
theorem exists_mapM_ok (h : ∀ x ∈ xs, ∃ y, f x = .ok y) : ∃ ys, xs.mapM f = .ok ys := by
  induction xs with
  | nil => exact ⟨[], rfl⟩
  | cons x xs ih =>
    rw [List.forall_mem_cons] at h
    obtain ⟨y, hy⟩ := h.1
    obtain ⟨ys, hys⟩ := ih h.2
    exact ⟨y :: ys, mapM_cons_ok.mpr ⟨y, ys, hy, hys, rfl⟩⟩

theorem length_of_mapM_ok (h : xs.mapM f = .ok zs) : zs.length = xs.length := by
  induction xs generalizing zs with
  | nil =>
    obtain rfl := Except.ok.inj h
    rfl
  | cons x xs ih =>
    obtain ⟨z, rest, -, hrest, rfl⟩ := mapM_cons_ok.mp h
    rw [List.length_cons, List.length_cons, ih hrest]

/-- Two lists are worked on one after the other. -/
theorem mapM_append_ok : (xs ++ ys).mapM f = .ok zs ↔
    ∃ as bs, xs.mapM f = .ok as ∧ ys.mapM f = .ok bs ∧ zs = as ++ bs := by
  rw [List.mapM_append]
  constructor
  · intro h
    obtain ⟨as, has, h⟩ := bind_eq_ok_iff.mp h
    obtain ⟨bs, hbs, h⟩ := bind_eq_ok_iff.mp h
    exact ⟨as, bs, has, hbs, (Except.ok.inj h).symm⟩
  · rintro ⟨as, bs, has, hbs, rfl⟩
    exact bind_eq_ok_iff.mpr ⟨as, has, bind_eq_ok_iff.mpr ⟨bs, hbs, rfl⟩⟩

/-- Two passes over a list whose results are joined item by item are one pass. -/
theorem mapM_zipWith_ok {g : β → Except ε γ} {join : β → γ → β} :
    (∃ ps qs, xs.mapM f = .ok ps ∧ ps.mapM g = .ok qs ∧ zs = List.zipWith join ps qs) ↔
      xs.mapM (fun x => (f x).bind fun p => (g p).map (join p)) = .ok zs := by
  induction xs generalizing zs with
  | nil =>
    constructor
    · rintro ⟨ps, qs, hps, hqs, rfl⟩
      obtain rfl := Except.ok.inj hps
      rfl
    · intro h
      exact ⟨[], [], rfl, rfl, (Except.ok.inj h).symm⟩
  | cons x xs ih =>
    rw [mapM_cons_ok]
    constructor
    · rintro ⟨ps, qs, hps, hqs, rfl⟩
      obtain ⟨p, ps', hp, hps', rfl⟩ := mapM_cons_ok.mp hps
      obtain ⟨q, qs', hq, hqs', rfl⟩ := mapM_cons_ok.mp hqs
      have hrest := ih.mp ⟨ps', qs', hps', hqs', rfl⟩
      exact ⟨join p q, _, bind_eq_ok_iff.mpr ⟨p, hp, map_eq_ok_iff.mpr ⟨q, hq, rfl⟩⟩, hrest, rfl⟩
    · rintro ⟨z, rest, hz, hrest, rfl⟩
      obtain ⟨p, hp, hz⟩ := bind_eq_ok_iff.mp hz
      obtain ⟨q, hq, rfl⟩ := map_eq_ok_iff.mp hz
      obtain ⟨ps, qs, hps, hqs, rfl⟩ := ih.mpr hrest
      exact ⟨p :: ps, q :: qs, mapM_cons_ok.mpr ⟨p, ps, hp, hps, rfl⟩,
        mapM_cons_ok.mpr ⟨q, qs, hq, hqs, rfl⟩, rfl⟩

end MapM

section Traced

variable {x : Traced α} {f : α → Traced β}

theorem Traced.bind_ok_iff {b : β} :
    (x >>= f).outcome = .ok b ↔ ∃ a, x.outcome = .ok a ∧ (f a).outcome = .ok b := by
  rw [Traced.outcome_bind, bind_eq_ok_iff]

theorem Traced.bind_error_iff {failure : Failure} : (x >>= f).outcome = .error failure ↔
    x.outcome = .error failure ∨ ∃ a, x.outcome = .ok a ∧ (f a).outcome = .error failure := by
  rw [Traced.outcome_bind, bind_eq_error_iff]

end Traced

end RowPipeline
