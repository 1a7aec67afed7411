import RowPipeline.Failure

/-!
# Traced computations

A traced computation has an outcome, which is a value or a failure, and the events that happened on the
way, in order. A failing step keeps the events before it. Main statements: the outcome of a sequence of
steps is the sequence of their outcomes (`outcome_bind`), and traced computations are a lawful monad.
-/

namespace RowPipeline

/-- Something that happened while expressions were evaluated or a plugin ran. -/
inductive Event where
  /-- An expression of a field was worked out; `source` is its text with the values in place. -/
  | evaluated (expression : String) (field : Key) (source : String) (result : Option Number)
  /-- A plugin was found under a reference. -/
  | loaded (target : String)
  /-- A config was handed to a validator function. -/
  | configChecked (config : Record)
  /-- A row was handed to a validator function. -/
  | rowChecked (row config : Record) (index : Nat)
  /-- A config passed validation. -/
  | configAccepted (config : Record)
  /-- The implementation was called. -/
  | called (rows : List Record) (config : Record)
  /-- An output parameter was found in the answer of the implementation. -/
  | outputFound (parameter : Key)
  /-- A run failed. -/
  | failed (failure : Failure)

/-- An outcome and the events before it. -/
structure Traced (α : Type) where
  outcome : Except Failure α
  events : List Event := []

namespace Traced

variable {α β : Type}

/-- A value without events. -/
protected def pure (a : α) : Traced α := ⟨.ok a, []⟩

/-- One step after the other; the second is left out if the first fails. -/
protected def bind (x : Traced α) (f : α → Traced β) : Traced β :=
  match x.outcome with
  | .ok a => ⟨(f a).outcome, x.events ++ (f a).events⟩
  | .error failure => ⟨.error failure, x.events⟩

instance : Monad Traced where
  pure := Traced.pure
  bind := Traced.bind

/-- A failure without events. -/
def fail (failure : Failure) : Traced α := ⟨.error failure, []⟩

/-- An outcome without events. -/
def lift (outcome : Except Failure α) : Traced α := ⟨outcome, []⟩

instance : MonadLift (Except Failure) Traced := ⟨lift⟩

/-- An event. -/
def emit (event : Event) : Traced Unit := ⟨.ok (), [event]⟩

@[simp] theorem outcome_pure (a : α) : (pure a : Traced α).outcome = .ok a := rfl

@[simp] theorem outcome_fail (failure : Failure) : (fail failure : Traced α).outcome = .error failure :=
  rfl

@[simp] theorem outcome_lift (outcome : Except Failure α) : (lift outcome).outcome = outcome := rfl

@[simp] theorem outcome_monadLift (outcome : Except Failure α) :
    (liftM outcome : Traced α).outcome = outcome := rfl

@[simp] theorem outcome_emit (event : Event) : (emit event).outcome = .ok () := rfl

/-- The outcome of two steps. -/
@[simp] theorem outcome_bind (x : Traced α) (f : α → Traced β) :
    (x >>= f).outcome = x.outcome.bind fun a => (f a).outcome := by
  obtain ⟨outcome, events⟩ := x
  cases outcome <;> rfl

@[simp] theorem outcome_map (f : α → β) (x : Traced α) : (f <$> x).outcome = x.outcome.map f := by
  obtain ⟨outcome, events⟩ := x
  cases outcome <;> rfl

theorem id_map_traced (x : Traced α) : id <$> x = x := by
  obtain ⟨outcome, events⟩ := x
  cases outcome <;> simp [Functor.map, Traced.bind, Traced.pure]

theorem pure_bind_traced (a : α) (f : α → Traced β) : (pure a >>= f) = f a := by
  simp [Bind.bind, Pure.pure, Traced.bind, Traced.pure]

theorem bind_assoc_traced {γ : Type} (x : Traced α) (f : α → Traced β) (g : β → Traced γ) :
    (x >>= f >>= g) = (x >>= fun a => f a >>= g) := by
  obtain ⟨outcome, events⟩ := x
  cases outcome with
  | error failure => rfl
  | ok a =>
    simp only [Bind.bind, Traced.bind]
    cases (f a).outcome <;> simp

instance : LawfulMonad Traced :=
  LawfulMonad.mk' Traced id_map_traced pure_bind_traced bind_assoc_traced

end Traced

end RowPipeline
