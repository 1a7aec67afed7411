import RowPipeline.Expression.Shape
import RowPipeline.Traced

/-!
# Evaluating expressions in a record

The names of an expression are looked up in a record, its *context*. A name whose value is itself an
expression is evaluated first, and so on; the names on the way form a *chain*, and a name that would come
up again on its own chain is a circular reference. Each step into a name takes it out of the names of the
context that are not on the chain, so evaluation ends.

Names are resolved from left to right, and a divisor that comes to zero is reported as soon as it is
resolved. An allow list that is not empty restricts evaluation to the fields it names; names that are
looked up on the way count as allowed. The field `timestamp` is never evaluated.
-/

namespace RowPipeline

namespace Expression

/-- The field that keeps its value whatever it looks like. -/
def timestamp : Key := .text "timestamp"

/-- Whether a field may be evaluated. -/
def allows (allow : List Key) (field : Key) : Bool := allow.isEmpty || allow.contains field

/-- The allow list for a name that is looked up. -/
def allowAlso (allow : List Key) (name : String) : List Key :=
  if allow.isEmpty then [] else allow ++ [.text name]

/-- Whether a value is a text that evaluation would look at. -/
def needsEvaluation : Value → Bool
  | .text s => hasMarker s || isClosed s
  | _ => false

/-- Reads the expression of a field. -/
def parseFor (expression : String) (field : Key) : Except Failure Tree :=
  match Tree.parse (body expression) with
  | .ok tree => .ok tree
  | .error (.lexical ..) => .error (.arithmetic (.foreignCharacter expression))
  | .error (.parse _) => .error (.arithmetic (.badShape field.label))
  | .error failure => .error failure

/-- The numbers of the operands in reading order; `done` holds those already resolved. A divisor that
comes to zero ends the evaluation. -/
def resolveOperands (resolve : String → Traced Number) (tree : Tree) (done : List Number) :
    List (String × Bool) → Traced (List Number)
  | [] => pure done
  | (name, divisor) :: rest => do
    let a ← resolve name
    let done := done ++ [a]
    if divisor && a.isZero then
      let source ← (tree.fill done).1.renderBare
      Traced.fail (.arithmetic (.divisionByZero source))
    else resolveOperands resolve tree done rest

/-- The number of a tree whose names have the given numbers. -/
def finish (expression : String) (field : Key) (tree : Tree) (values : List Number) :
    Traced (Option Number) := do
  let filled := (tree.fill values).1
  let source ← filled.renderBare
  let computed ← filled.compute (fun _ => .error .missingKey) source
  let result ← computed.finalize source
  Traced.emit (.evaluated expression field source result)
  return result

/-- Evaluates the value of a field; `resolve` gives the number of a name in an expression. -/
def evaluateWith (resolve : String → String → Traced Number) (context : Record) (allow : List Key)
    (field : Key) (value : Value) : Traced Value :=
  if field = timestamp then pure ((context.get? timestamp).getD value)
  else match value with
    | .text s =>
      if !needsEvaluation value || !allows allow field then pure value
      else if isClosed s then Traced.lift (.ofNumber? <$> evaluateClosed s)
      else do
        let tree ← parseFor s field
        let values ← resolveOperands (resolve s) tree [] tree.operands
        .ofNumber? <$> finish s field tree values
    | _ => pure value

/-! ### Resolving names -/

/-- The names of a context that are not on a chain. -/
def unvisited (context : Record) (chain : List Key) : List Key :=
  context.keys.filter fun k => !chain.contains k

theorem unvisited_lt {context : Record} {chain : List Key} {k : Key} {v : Value}
    (h : context.get? k = some v) (hk : chain.contains k = false) :
    (unvisited context (chain ++ [k])).length < (unvisited context chain).length := by
  have hmem : k ∈ context.keys := Fields.mem_keys_of_get? h
  unfold unvisited
  have hsub : (context.keys.filter fun a => !(chain ++ [k]).contains a) =
      (context.keys.filter fun a => !chain.contains a).filter fun a => a != k := by
    rw [List.filter_filter]
    congr 1
    funext a
    by_cases ha : a = k <;> simp [ha]
  rw [hsub]
  have hin : k ∈ context.keys.filter fun a => !chain.contains a := by
    simp only [List.mem_filter, hmem, hk, Bool.not_false, and_self]
  exact List.length_filter_lt_length_iff_exists.2 ⟨k, hin, by simp⟩

/-- The number that a value counts as where the name `name` stands. -/
def numberOf (name : String) (value : Value) : Except Failure Number := do
  match ← value.toNumber with
  | some a => .ok a
  | none => .error (.arithmetic (.nonNumericVariable name))

/-- The number of a name in an expression; `chain` holds the fields under evaluation. -/
def resolve (context : Record) (allow chain : List Key) (expression name : String) : Traced Number :=
  match h : context.get? (.text name) with
  | none => Traced.fail (.arithmetic (.missingVariable name))
  | some value =>
    if value.isNull then Traced.fail (.arithmetic (.missingVariable name))
    else if needsEvaluation value then
      if hc : chain.contains (.text name) then
        Traced.fail (.arithmetic (.circular expression (chain.map Scalar.label ++ [name])))
      else do
        let deeper := resolve context (allowAlso allow name) (chain ++ [.text name])
        let result ← evaluateWith deeper context (allowAlso allow name) (.text name) value
        if result.isNull then Traced.fail (.arithmetic (.missingVariable name))
        else numberOf name result
    else numberOf name value
termination_by (unvisited context chain).length
decreasing_by exact unvisited_lt h (by simpa using hc)

/-- Evaluates the value of a field in a context. The value comes back unchanged if it is no expression
or the field is not allowed; an undefined result is the absent value. -/
def evaluate (context : Record) (allow : List Key) (field : Key) (value : Value) : Traced Value :=
  evaluateWith (resolve context allow [field]) context allow field value

end Expression

end RowPipeline
