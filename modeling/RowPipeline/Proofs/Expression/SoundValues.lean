import Mathlib.Logic.Relation
import RowPipeline.Proofs.Expression.Assignment
import RowPipeline.Proofs.Expression.NumberTexts
import RowPipeline.Proofs.Expression.Renaming

/-!
# What a value says about its text

If a text has a value, no operand behind a division sign is zero, and the value is settled: a whole number, or
a finite double that is no small whole number (`Evaluation.Sound`). A divisor is one token, because a grouped
tree has an operand on the right of a product (`Tree.divisor_of_comesTo`). Infinities and undefined numbers
may come up on the way, but `Number.finalize` lets neither through.

The same holds of the evaluations that an evaluation starts for its names (`Evaluation.Starts`), and these all
have a number if it has a value.
-/

namespace RowPipeline

open Expression

/-! ### Settled numbers -/

namespace Number

/-- A whole number, or a finite double other than a whole number of at most `maxSafe`. -/
def Settled : Number → Prop
  | int _ => True
  | float x => x.isFinite ∧ ∀ n, x.toInt? = some n → maxSafe < n.natAbs

theorem settled_normalize {a : Number} (h : a.isFinite) : a.normalize.Settled := by
  cases a with
  | int n => trivial
  | float x =>
    rw [normalize]
    split
    · rename_i n hn
      split
      · trivial
      · rename_i hlarge
        refine ⟨h, fun m hm => ?_⟩
        obtain rfl := Option.some.inj (hn.symm.trans hm)
        exact not_le.mp hlarge
    · rename_i hn
      refine ⟨h, fun m hm => ?_⟩
      rw [hn] at hm
      cases hm

/-- **Neither an infinity nor an undefined number** is the result of a computation. -/
theorem settled_of_finalize {a b : Number} {source : String} (h : a.finalize source = .ok (some b)) :
    b.Settled := by
  unfold finalize at h
  split at h
  · cases h
  · cases h
  · rename_i hnan hinf
    obtain rfl := Option.some.inj (Except.ok.inj h)
    apply settled_normalize
    cases a with
    | int n => rfl
    | float x =>
      cases x with
      | finite => rfl
      | infinite negative => exact absurd rfl (hinf negative)
      | nan => exact absurd rfl hnan

end Number

/-! ### Divisors -/

namespace Lexeme

/-- The number that an operand stands for. -/
def number? (values : String → Number) : Lexeme → Option Number
  | number a => some a
  | name text => some (values text)
  | quoted text => some (values text)
  | _ => none

theorem eq_div_of_ofOperator? {op : Operator} (h : ofOperator? op = some divide) : op = .div := by
  cases op <;> first | rfl | cases h

end Lexeme

namespace Tree

variable {number : String → Number} {t : Tree} {ls : List Lexeme} {a : Number}

theorem number?_of_leaf (hleaf : t.isLeaf) (ho : t.inOrder = some ls) (h : (t.assign number).ComesTo a) :
    ∃ l, ls = [l] ∧ l.number? number = some a := by
  cases t with
  | literal b =>
    obtain rfl : b = a := Except.ok.inj h
    exact ⟨_, (Option.some.inj ho).symm, rfl⟩
  | name text quoted =>
    obtain rfl : number text = a := Except.ok.inj h
    refine ⟨_, (Option.some.inj ho).symm, ?_⟩
    cases quoted <;> rfl
  | binary op left right => cases hleaf
  | hole => cases hleaf

/-- **Behind every division sign** stands an operand that is not zero, if the tree comes to a number. -/
theorem divisor_of_comesTo (ho : t.inOrder = some ls) (hg : t.grouped) (h : (t.assign number).ComesTo a)
    {i : Nat} (hi : ls[i]? = some .divide) :
    ∃ l b, ls[i + 1]? = some l ∧ l.number? number = some b ∧ b.isZero = false := by
  induction t generalizing ls a i with
  | literal b =>
    obtain rfl : [Lexeme.number b] = ls := Option.some.inj ho
    cases i <;> cases hi
  | name text quoted =>
    obtain rfl : [Lexeme.ofName text quoted] = ls := Option.some.inj ho
    cases i <;> cases quoted <;> cases hi
  | binary op left right ihl ihr =>
    obtain ⟨ll, l, lr, hl, hop, hr, rfl⟩ := inOrder_binary ho
    obtain ⟨hgl, hgr⟩ := grouped_of_binary hg
    obtain ⟨b, c, hb, hc, happly⟩ := comesTo_binary.mp h
    -- the sign stands on the left, is the operator itself, or stands on the right
    rcases lt_trichotomy i ll.length with hleft | rfl | hright
    · rw [List.getElem?_append_left hleft] at hi
      obtain ⟨l', b', hl', hb'⟩ := ihl hl hgl hb hi
      have hnext : i + 1 < ll.length := (List.getElem?_eq_some_iff.mp hl').1
      exact ⟨l', b', by rw [List.getElem?_append_left hnext, hl'], hb'⟩
    · obtain rfl : l = .divide := by simpa using hi
      obtain rfl := Lexeme.eq_div_of_ofOperator? hop
      obtain ⟨l', rfl, hl'⟩ := number?_of_leaf (isLeaf_right (Or.inr rfl) hg) hr hc
      exact ⟨l', c, by simp, hl', Operator.isZero_of_div happly⟩
    · obtain ⟨j, rfl⟩ := Nat.exists_eq_add_of_lt hright
      have hshift : ∀ k, (ll ++ l :: lr)[ll.length + k + 1]? = lr[k]? := by
        intro k
        rw [List.getElem?_append_right (by omega), Nat.add_assoc, Nat.add_sub_cancel_left,
          List.getElem?_cons_succ]
      rw [hshift] at hi
      obtain ⟨l', b', hl', hb'⟩ := ihr hr hgr hc hi
      exact ⟨l', b', (hshift (j + 1)).trans hl', hb'⟩
  | hole => cases ho

end Tree

/-! ### Evaluations -/

/-- The evaluation of the text of a field, with the allow list and the fields under evaluation. -/
structure Evaluation where
  allow : List Key
  chain : List Key
  field : Key
  text : String

namespace Evaluation

variable {context : Record} {e e' : Evaluation} {v : Value}

/-- What becomes of a name in the text. -/
def named (context : Record) (e : Evaluation) (name : String) : Except Failure Number :=
  (resolve context e.allow e.chain e.text name).outcome

/-- What becomes of the text. -/
def outcome (context : Record) (e : Evaluation) : Except Failure Value :=
  (evaluateWith (resolve context e.allow e.chain) context e.allow e.field (.text e.text)).outcome

/-- The operand of the text is the number, or it is a name that has come to it. -/
def Denotes (context : Record) (e : Evaluation) (l : Lexeme) (a : Number) : Prop :=
  l = .number a ∨ ∃ name, l.isNamed name ∧ e.named context name = .ok a

/-- Evaluating a text comes upon a name that holds an expression and is not under evaluation yet. -/
inductive Starts (context : Record) : Evaluation → Evaluation → Prop
  | name {e : Evaluation} {tree : Tree} {name t : String} : Examined e.allow e.field e.text →
      Tree.parse (body e.text) = .ok tree → Mentions tree name →
      context.get? (.text name) = some (.text t) → needsEvaluation (.text t) →
      e.chain.contains (.text name) = false →
      Starts context e ⟨allowAlso e.allow name, e.chain ++ [.text name], .text name, t⟩

/-- What a value of the text says about it. -/
structure Sound (context : Record) (e : Evaluation) (v : Value) : Prop where
  /-- What stands behind a division sign has come to a number other than zero. -/
  divisors : ∃ ts finish, tokenize (body e.text) = .ok (ts ++ [finish]) ∧
    ∀ i t, ts[i]? = some t → t.lexeme = .divide →
      ∃ u a, ts[i + 1]? = some u ∧ e.Denotes context u.lexeme a ∧ a.isZero = false
  /-- The value is undefined or a settled number. -/
  value : v = .null ∨ ∃ a, v = .ofNumber a ∧ a.Settled

theorem denotes_of_number? {tree : Tree} {number : String → Number} {ls : List Lexeme} {l : Lexeme}
    {a : Number} (ho : tree.inOrder = some ls)
    (hnumber : ∀ name, Mentions tree name → e.named context name = .ok (number name)) (hl : l ∈ ls)
    (ha : l.number? number = some a) : e.Denotes context l a := by
  have hname : ∀ name, l.isNamed name → number name = a → e.Denotes context l a := by
    rintro name hnamed rfl
    exact Or.inr ⟨name, hnamed, hnumber name ((Tree.mentions_iff ho).mpr ⟨l, hl, hnamed⟩)⟩
  cases l with
  | number b => exact Or.inl (congrArg _ (Option.some.inj ha))
  | name text => exact hname text (by simp [Lexeme.isNamed]) (Option.some.inj ha)
  | quoted text => exact hname text (by simp [Lexeme.isNamed]) (Option.some.inj ha)
  | _ => cases ha

/-- **A value is sound.** -/
theorem sound_of_outcome (h : Examined e.allow e.field e.text) (hv : e.outcome context = .ok v) :
    e.Sound context v := by
  obtain ⟨tree, hp⟩ := parsed_of_ok h hv
  obtain ⟨ts, finish, ht, hg, ho⟩ := Tree.tokens_of_parse hp
  obtain ⟨number, hnumber, r, ⟨-, b, hb, hr⟩, rfl⟩ := (evaluateWith_ok_iff h hp).mp hv
  constructor
  · refine ⟨ts, finish, ht, fun i t hi hdivide => ?_⟩
    have hsign : (ts.map Token.lexeme)[i]? = some .divide := by rw [List.getElem?_map, hi, ← hdivide]; rfl
    obtain ⟨l, a, hl, ha, hz⟩ := Tree.divisor_of_comesTo ho hg hb hsign
    obtain ⟨u, hu, rfl⟩ := Option.map_eq_some_iff.mp (List.getElem?_map ▸ hl)
    exact ⟨u, a, hu, denotes_of_number? ho hnumber (List.mem_of_getElem? hl) ha, hz⟩
  · cases r with
    | none => exact Or.inl rfl
    | some c => exact Or.inr ⟨c, rfl, Number.settled_of_finalize hr⟩

/-! ### Evaluations on the way -/

theorem Starts.evaluated (h : Starts context e e') : e.field ≠ timestamp := by
  cases h with
  | name hex => exact hex.evaluated

theorem Starts.examined (h : Starts context e e') (hf : e'.field ≠ timestamp) :
    Examined e'.allow e'.field e'.text := by
  cases h with
  | name hex hp hmention hget hneeds hchain => exact ⟨hf, hneeds, allows_allowAlso _ _⟩

/-- An evaluation has a value only if those that it starts have a number. -/
theorem Starts.outcome (h : Starts context e e') (hf : e'.field ≠ timestamp)
    (hv : e.outcome context = .ok v) : ∃ a, e'.outcome context = .ok (.ofNumber a) := by
  have hex' := h.examined hf
  cases h with
  | @name tree name t hex hp hmention hget hneeds hchain =>
    obtain ⟨number, hnumber, -⟩ := (evaluateWith_ok_iff hex hp).mp hv
    have hname := hnumber name hmention
    rw [resolve_of_expression hget hneeds hchain] at hname
    obtain ⟨result, hresult, hfinished⟩ := Traced.bind_ok_iff.mp hname
    obtain ⟨r, rfl⟩ := evaluateWith_number hf hneeds hex'.allowed hresult
    cases r with
    | none => cases hfinished
    | some a => exact ⟨a, hresult⟩

theorem examined_of_transGen (h : Relation.TransGen (Starts context) e e') (hf : e'.field ≠ timestamp) :
    Examined e'.allow e'.field e'.text := by
  cases h with
  | single h => exact h.examined hf
  | tail _ h => exact h.examined hf

/-- An evaluation has a value only if those on the way have a number. -/
theorem outcome_of_transGen (h : Relation.TransGen (Starts context) e e') (hf : e'.field ≠ timestamp)
    (hv : e.outcome context = .ok v) : ∃ a, e'.outcome context = .ok (.ofNumber a) := by
  induction h with
  | single h => exact h.outcome hf hv
  | tail _ h ih =>
    obtain ⟨a, ha⟩ := ih h.evaluated
    exact h.outcome hf ha

end Evaluation

/-! ### The value of a text -/

namespace Expression

/-- **No divisor is zero, and no infinity gets out.** If evaluation looks at a text and the text has a value,
every operand behind a division sign has come to a number other than zero, and the value is undefined, a whole
number, or a finite double that is no small whole number. The same holds of every expression that is evaluated
on the way, and each of these has a number if the text has a value. -/
theorem evaluate_sound (context : Record) (allow : List Key) (field : Key) (s : String)
    (hf : field ≠ timestamp) (hn : needsEvaluation (.text s)) (ha : allows allow field) :
    (∀ v, (evaluate context allow field (.text s)).outcome = .ok v →
      Evaluation.Sound context ⟨allow, [field], field, s⟩ v) ∧
    ∀ e, Relation.TransGen (Evaluation.Starts context) ⟨allow, [field], field, s⟩ e →
      e.field ≠ timestamp →
      (∀ v, e.outcome context = .ok v → e.Sound context v) ∧
      ((∃ v, (evaluate context allow field (.text s)).outcome = .ok v) →
        ∃ a, e.outcome context = .ok (.ofNumber a)) := by
  refine ⟨fun v hv => ?_, fun e he hfield => ⟨fun v hv => ?_, ?_⟩⟩
  · exact Evaluation.sound_of_outcome ⟨hf, hn, ha⟩ hv
  · exact Evaluation.sound_of_outcome (Evaluation.examined_of_transGen he hfield) hv
  · rintro ⟨v, hv⟩
    exact Evaluation.outcome_of_transGen he hfield hv

/-- A row in which the divisor of one text is itself a quotient. -/
def quotients : Record :=
  ⟨[(.text "total", .text "=6/cores"), (.text "cores", .int 4)], by decide⟩

/-- A half, with one and a half on the way. -/
theorem evaluate_sound_of_quotients :
    let share : Evaluation := ⟨[], [.text "share"], .text "share", "=3/total/cores"⟩
    let total : Evaluation := ⟨[], [.text "share", .text "total"], .text "total", "=6/cores"⟩
    share.field ≠ timestamp ∧ needsEvaluation (.text share.text) ∧ allows share.allow share.field ∧
      share.outcome quotients = .ok (.float (.ofQuotient 1 2)) ∧
      share.Sound quotients (.float (.ofQuotient 1 2)) ∧
      total.outcome quotients = .ok (.float (.ofQuotient 3 2)) ∧
      total.Sound quotients (.float (.ofQuotient 3 2)) := by
  intro share total
  have hf : share.field ≠ timestamp := by decide
  have hn : needsEvaluation (.text share.text) := by decide
  have ha : allows share.allow share.field := by decide
  have hp : Tree.parse (body share.text) = .ok (.binary .div (.binary .div (.literal (.int 3))
    (.name "total" false)) (.name "cores" false)) := by cbv
  have hp' : Tree.parse (body total.text) =
    .ok (.binary .div (.literal (.int 6)) (.name "cores" false)) := by cbv
  have hstart : Evaluation.Starts quotients share total :=
    .name ⟨hf, hn, ha⟩ hp (by simp [Mentions, Tree.names]) rfl (by decide) (by decide)
  have htotal : total.outcome quotients = .ok (.float (.ofQuotient 3 2)) := by
    have hquotient : (finish "=6/cores" (.text "total")
        (.binary .div (.literal (.int 6)) (.name "cores" false)) [.int 4]).outcome =
          .ok (some (.float (.ofQuotient 3 2))) := by decide +kernel
    refine (evaluateWith_ok_iff ⟨by decide, by decide, by decide⟩ hp').mpr
      ⟨fun _ => .int 4, ?_, _, (finish_ok_iff rfl).mp hquotient, rfl⟩
    intro name hmention
    obtain rfl : name = "cores" := by simpa [Mentions, Tree.names] using hmention
    exact resolve_of_int rfl
  have hshare : share.outcome quotients = .ok (.float (.ofQuotient 1 2)) := by
    have hquotient : (finish "=3/total/cores" (.text "share") (.binary .div (.binary .div
        (.literal (.int 3)) (.name "total" false)) (.name "cores" false))
          [.float (.ofQuotient 3 2), .int 4]).outcome =
          .ok (some (.float (.ofQuotient 1 2))) := by decide +kernel
    refine (evaluateWith_ok_iff ⟨hf, hn, ha⟩ hp).mpr
      ⟨fun name => if name = "total" then .float (.ofQuotient 3 2) else .int 4, ?_, _,
        (finish_ok_iff rfl).mp hquotient, rfl⟩
    intro name hmention
    have hname : name = "total" ∨ name = "cores" := by simpa [Mentions, Tree.names] using hmention
    rcases hname with rfl | rfl
    · have hcoerced : finishedNumber "total" (.float (.ofQuotient 3 2)) =
          .ok (.float (.ofQuotient 3 2)) := by decide +kernel
      rw [resolve_of_expression rfl (by decide) (by decide)]
      exact Traced.bind_ok_iff.mpr ⟨_, htotal, hcoerced⟩
    · exact resolve_of_int rfl
  obtain ⟨htop, hnested⟩ := evaluate_sound quotients [] (.text "share") "=3/total/cores" hf hn ha
  exact ⟨hf, hn, ha, hshare, htop _ hshare, htotal,
    (hnested total (.single hstart) (by decide)).1 _ htotal⟩

end Expression

end RowPipeline
