import RowPipeline.Expression.Evaluation

/-!
# Evaluating rows and configs

A row is evaluated field by field against the row as evaluated so far; a config is evaluated, in the
fields of its allow list only, against a row. A field whose expression is undefined is left out.
`evaluateOutput` works out the expression that a plugin used as the name of an output field.
-/

namespace RowPipeline

open Expression

namespace Record

/-- Sets a field to the value of its expression, or removes it if the expression is undefined. -/
def settle (r : Record) (field : Key) (raw result : Value) : Record :=
  if result.isNull && !raw.isNull then r.erase field else r.insert field result

/-- Evaluates fields one after the other. -/
def evaluateFields (done : Record) : List (Key × Value) → Traced Record
  | [] => pure done
  | (field, raw) :: rest => do
    let result ← evaluate done [] field raw
    evaluateFields (done.settle field raw result) rest

/-- Evaluates every field of a record. -/
def evaluate (r : Record) : Traced Record := evaluateFields r r.entries

/-- Checks that a value has the marker iff it is an expression; closed texts and values that are no
texts pass. -/
def checkShape (field : Key) (value : Value) : Except Failure Value := do
  match value with
  | .text s =>
    if isClosed s then return value
    if hasMarker s != (← isExpression s) then .error (.arithmetic (.badShape field.label))
    else return value
  | _ => return value

/-- Evaluates the allowed fields of a config, one after the other. -/
def evaluateAllowed (row : Record) (allow : List Key) (done : Record) :
    List (Key × Value) → Traced Record
  | [] => pure done
  | (field, raw) :: rest =>
    if allow.contains field then do
      let _ ← checkShape field raw
      let result ← Expression.evaluate row allow field raw
      evaluateAllowed row allow (done.settle field raw result) rest
    else evaluateAllowed row allow done rest

/-- Evaluates the allowed fields of a config against a row. -/
def evaluateConfig (config row : Record) (allow : List Key) : Traced Record :=
  evaluateAllowed row allow config config.entries

/-- Puts a field in the place of another one; without a value the other one is left out. -/
def replaceField (field : Key) (target : String) (value : Value) (r : Record) : Record :=
  .ofList (r.entries.filterMap fun (k, v) =>
    if k ≠ field then some (k, v)
    else if value.isNull then none
    else some (.text target, value))

/-- The value of a field, absent if it is missing. -/
def read (r : Record) (field : Key) : Value := (r.get? field).getD .null

/-- Works out an output expression. For the parameter `=2*result` the row holds the raw value of
`result` under the key `=2*result`; the computed value takes that place under the name `result`. A
parameter without marker is a plain field name. -/
def evaluateOutput (parameter : Key) (row : Record) : Traced Record := do
  let plain : Traced Record := pure (row.insert parameter (row.read parameter))
  match parameter with
  | .text p =>
    if !hasMarker p then
      if ← isExpression p then Traced.fail (.arithmetic (.badShape p)) else plain
    else
      let tree ← parseFor p parameter
      match tree.firstName? with
      | none => Traced.fail (.arithmetic (.badShape p))
      | some target =>
        match ← (row.read parameter).toNumber with
        | none => Traced.fail (.arithmetic (.nonNumericOutput p))
        | some raw =>
          let context := row.insert (.text target) (.ofNumber raw)
          let result ← Expression.evaluate context [] (.text target) (.text p)
          return row.replaceField parameter target result
  | _ => plain

end Record

end RowPipeline
