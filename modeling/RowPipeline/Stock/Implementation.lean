import RowPipeline.Plugin

/-!
# Stock implementations

Ready-made work for plugins: copying and multiplying fields, fixed answers, failures, and changes to the
mapping table.
-/

namespace RowPipeline

namespace Value

/-- A text or a list, so many times over; none if the count is negative. -/
def repeated (n : Int) : Value → Except Failure Value
  | text s => .ok (.text (String.join (List.replicate n.toNat s)))
  | .list vs => .ok (.list (List.replicate n.toNat vs).flatten)
  | _ => .error .wrongType

/-- The product of two values: of numbers, or of a whole number and a text or a list. -/
def product (v w : Value) : Except Failure Value :=
  match v.operand?, w.operand? with
  | some a, some b => (a.mul b).elim (.error .overflow) fun c => .ok (ofNumber c)
  | some (.int n), none => w.repeated n
  | none, some (.int n) => v.repeated n
  | _, _ => .error .wrongType

/-- A value as the name of a field; lists and dictionaries are no names. -/
def asKey : Value → Except Failure Key
  | .scalar k => .ok k
  | _ => .error .wrongType

end Value

namespace Stock

/-- The value of a field that has to be there. -/
def demand (r : Record) (field : Key) : Except Failure Value := (r.get? field).elim (.error .missingKey) .ok

/-- A setting: a fixed value or what the config holds under a name. -/
inductive Setting where
  | fixed (v : Value)
  | fromConfig (field : Key)

/-- The value of a setting. -/
def Setting.value (config : Record) : Setting → Except Failure Value
  | fixed v => .ok v
  | fromConfig field => demand config field

/-- A ready-made implementation. -/
inductive Implementation where
  /-- Answers the rows. -/
  | identity
  /-- Sets a field in every row. -/
  | set (field : Key) (value : Value)
  /-- Copies a field of every row. -/
  | copy (source : Key) (target : Setting)
  /-- Multiplies a field of every row. -/
  | product (source : Key) (factor target : Setting)
  /-- Answers fixed rows. -/
  | rows (rows : List Record)
  /-- Answers the first rows; a negative count leaves out so many at the end. -/
  | take (count : Int)
  /-- Removes fields from every row. -/
  | drop (fields : List Key)
  /-- Removes and sets entries of the table, and answers the rows. -/
  | editMapping (removed : List String) (entries : List (String × String))
  /-- Fails. -/
  | fail (failure : Failure)

namespace Implementation

/-- The rows with a field set in each. -/
def setEach (rows : List Record) (f : Record → Except Failure (Key × Value)) :
    Except Failure (List Record) :=
  rows.mapM fun row => do
    let (field, value) ← f row
    return row.insert field value

/-- The rows with the product of a field and a factor in each. -/
def multiply (source : Key) (factor target : Setting) (call : Call) : Except Failure (List Record) :=
  setEach call.rows fun row => do
    let field ← target.value call.config
    let value ← (← demand row source).product (← factor.value call.config)
    return (← field.asKey, value)

/-- The first rows, or all but the last ones if the count is negative. -/
def takeRows (rows : List Record) (count : Int) : List Record :=
  if 0 ≤ count then rows.take count.toNat else rows.take (rows.length - count.natAbs)

/-- The rows that an implementation answers. -/
def answer (call : Call) : Implementation → Except Failure (List Record)
  | identity => .ok call.rows
  | set field value => .ok (call.rows.map (·.insert field value))
  | copy source target => setEach call.rows fun row => do
    return (← (← target.value call.config).asKey, row.read source)
  | product source factor target => multiply source factor target call
  | rows answer => .ok answer
  | take count => .ok (takeRows call.rows count)
  | drop fields => .ok (call.rows.map (·.eraseAll fields))
  | editMapping _ _ => .ok call.rows
  | fail failure => .error failure

/-- The table as an implementation leaves it. -/
def mapping (m : Mapping) : Implementation → Mapping
  | editMapping removed entries => (m.eraseAll removed).insertAll entries
  | _ => m

/-- The work of an implementation. -/
def run (i : Implementation) : RowPipeline.Implementation := fun call =>
  ⟨i.answer call, call.rows, i.mapping call.mapping⟩

end Implementation

end Stock

end RowPipeline
