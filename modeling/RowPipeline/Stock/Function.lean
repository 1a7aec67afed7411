import RowPipeline.Validation.Validator

/-!
# Stock validator functions

Functions for plugins that validate by a function. Each is used for a config and for rows alike.
-/

namespace RowPipeline.Stock

/-- A validator function. -/
inductive Function where
  /-- Answers nothing. -/
  | silent
  /-- Answers its argument. -/
  | echo
  /-- Refuses an empty record. -/
  | require
  /-- Sets a field. -/
  | set (field : Key) (value : Value)
  /-- Keeps the named fields. -/
  | only (fields : List Key)
  /-- Adds the number of the row. -/
  | number
  /-- Adds the config that it is given. -/
  | showConfig
  /-- Refuses the row of a number, and every config. -/
  | reject (index : Int) (message : String)

namespace Function

/-- Applies a function to a record; for a row, `config` and `index` are given too. -/
def apply (config : Option Record) (index : Option Nat) (r : Record) :
    Function → Except Failure (Option Record)
  | silent => .ok none
  | echo => .ok (some r)
  | require => if r.isEmpty then .error (.raised .config "Config is not provided.") else .ok (some r)
  | set field value => .ok (some (r.insert field value))
  | only fields => .ok (some (r.filter fun k _ => fields.contains k))
  | number => .ok (some (r.insert "index" (index.elim .null fun i => .int i)))
  | showConfig => .ok (some (r.insert "cfg" (config.elim .null Value.ofRecord)))
  | reject refused message =>
    match index with
    | none => .error (.raised .inputValidation message)
    | some i => if refused = i then .error (.raised .inputValidation message) else .ok (some r)

/-- The function as a validator. -/
def validator (f : Function) : ValidatorFunction where
  onConfig := fun config => f.apply none none config
  onRow := fun row config index => f.apply (some config) (some index) row

end Function

end RowPipeline.Stock
