import RowPipeline.Expression.Coercion
import RowPipeline.Expression.Parser
import RowPipeline.Proofs.Expression.Tokens
import RowPipeline.Proofs.Outcome

/-!
# What can go wrong with an expression

Reading fails at a foreign character, a long numeral or a token out of turn (`parse_error`). Writing
and working out a tree of numbers fails in its numbers only (`Failure.isNumeric`): a number is too
long or too large, a divisor is zero, or the tree is none that reading makes. Every other failure
comes from the names (`renderWith_error`, `compute_error`).
-/

namespace RowPipeline

/-- Whether a kind of error is one of expressions. -/
def ErrorKind.isArithmetic : ErrorKind → Bool
  | wrongArithmeticExpression | missingVariable | nonNumericVariable | divisionByZero => true
  | _ => false

/-- Whether a failure is about the numbers of a tree and not about its names. -/
def Failure.isNumeric : Failure → Bool
  | numeralTooLong | overflow | wrongType | unknownOperator _ => true
  | arithmetic (.divisionByZero _) => true
  | _ => false

/-- A number that cannot be written is too long. -/
theorem Number.print_error_eq {a : Number} {failure : Failure} (h : a.print = .error failure) :
    failure = .numeralTooLong := by
  rw [print] at h
  cases ht : a.text? with
  | none =>
    rw [ht] at h
    exact (Except.error.inj h).symm
  | some s =>
    rw [ht] at h
    cases h

theorem Number.print_error {a : Number} {failure : Failure} (h : a.print = .error failure) :
    failure.isNumeric := by
  rw [print_error_eq h]
  rfl

theorem Number.finalize_error {a : Number} {source : String} {failure : Failure}
    (h : a.finalize source = .error failure) : failure.isNumeric := by
  unfold Number.finalize at h
  split at h
  · simp at h
  · obtain rfl := Except.error.inj h
    rfl
  · simp at h

theorem Operator.apply_error {op : Operator} {a b : Number} {source : String} {failure : Failure}
    (h : op.apply a b source = .error failure) : failure.isNumeric := by
  have hbounded : ∀ result : Option Number,
      result.elim (.error .overflow) Except.ok = .error failure → failure.isNumeric := by
    rintro (_ | result) hr
    · obtain rfl := Except.error.inj hr
      rfl
    · simp at hr
  cases op with
  | add => exact hbounded _ h
  | sub => exact hbounded _ h
  | mul => exact hbounded _ h
  | div =>
    simp only [Operator.apply] at h
    split at h
    · obtain rfl := Except.error.inj h
      rfl
    · exact hbounded _ h
  | other symbol =>
    obtain rfl := Except.error.inj h
    rfl

namespace Tree

theorem renderWith_error {write : String → Bool → Except Failure String} {failure : Failure} :
    ∀ {t : Tree}, t.renderWith write = .error failure →
      failure.isNumeric ∨ ∃ n ∈ t.names, write n.1 n.2 = .error failure
  | literal a, h => Or.inl (Number.print_error h)
  | name text quoted, h => Or.inr ⟨(text, quoted), by simp [names], h⟩
  | binary op left right, h => by
    rcases bind_eq_error_iff.mp h with hl | ⟨l, -, h⟩
    · rcases renderWith_error hl with hn | ⟨n, hn, hw⟩
      · exact Or.inl hn
      · exact Or.inr ⟨n, by simp [names, hn], hw⟩
    · rcases bind_eq_error_iff.mp h with hr | ⟨r, -, h⟩
      · rcases renderWith_error hr with hn | ⟨n, hn, hw⟩
        · exact Or.inl hn
        · exact Or.inr ⟨n, by simp [names, hn], hw⟩
      · cases h
  | hole, h => by
    obtain rfl := Except.error.inj h
    exact Or.inl rfl

theorem compute_error {value : String → Except Failure Number} {source : String}
    {failure : Failure} : ∀ {t : Tree}, t.compute value source = .error failure →
      failure.isNumeric ∨ ∃ n ∈ t.names, value n.1 = .error failure
  | literal a, h => by cases h
  | name text quoted, h => Or.inr ⟨(text, quoted), by simp [names], h⟩
  | binary op left right, h => by
    rcases bind_eq_error_iff.mp h with hl | ⟨a, -, h⟩
    · rcases compute_error hl with hn | ⟨n, hn, hw⟩
      · exact Or.inl hn
      · exact Or.inr ⟨n, by simp [names, hn], hw⟩
    · rcases bind_eq_error_iff.mp h with hr | ⟨b, -, h⟩
      · rcases compute_error hr with hn | ⟨n, hn, hw⟩
        · exact Or.inl hn
        · exact Or.inr ⟨n, by simp [names, hn], hw⟩
      · exact Or.inl (Operator.apply_error h)
  | hole, h => by
    obtain rfl := Except.error.inj h
    exact Or.inl rfl

/-- Reading fails at a long numeral, a foreign character or a token out of turn. -/
theorem parse_error {cs : List Char} {failure : Failure} (h : parse cs = .error failure) :
    failure = .numeralTooLong ∨ (∃ ch p, failure = .lexical ch p) ∨ ∃ e, failure = .parse e := by
  rcases bind_eq_error_iff.mp h with ht | ⟨all, -, h⟩
  · rcases Cursor.tokens_error _ ht with rfl | ⟨ch, p, rfl⟩
    · exact Or.inl rfl
    · exact Or.inr (Or.inl ⟨ch, p, rfl⟩)
  · cases ho : ofTokens all with
    | error e =>
      rw [ho] at h
      obtain rfl := Except.error.inj h
      exact Or.inr (Or.inr ⟨e, rfl⟩)
    | ok tree => rw [ho] at h; cases h

end Tree

end RowPipeline
