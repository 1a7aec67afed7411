import RowPipeline.Validation.Model.Conversion
import RowPipeline.Validation.Union

/-!
# Models

A model says what a value should be and makes it so where it leniently can: numbers are converted, the
fields of a record are put in order, missing ones get their defaults and unknown ones are dropped.
`Model.read` gives the value of the model, or every issue at once, fields and items in order.

A value that fits no member of a union has an issue for each, with the name of the member on its path.
-/

namespace RowPipeline

/-- What becomes of a field that a record does not have. -/
inductive Absence where
  /-- The field has to be there. -/
  | required
  /-- The field gets this value as it stands. -/
  | default (value : Value)
  /-- The field stays away. -/
  | optional

/-- A field of a record. -/
structure ModelField where
  name : String
  /-- Another name that the field may be given under. -/
  otherName : Option String := none
  absence : Absence := .required

/-- What a value should be. -/
inductive Model where
  | whole (positive : Bool)
  | real (positive : Bool)
  | text
  /-- A whole number or a text; each is kept as it is. -/
  | wholeOrText
  | nullable (inner : Model)
  | list (item : Model)
  /-- A record; with a title it leaves out its fields without a value. -/
  | record (title : Option String) (fields : List (ModelField × Model))

namespace Model

/-- The value of a model, or what keeps a value from having one. -/
abbrev Reading (α : Type) := Except (List Issue) α

namespace Reading

variable {α β : Type}

/-- A conversion as a reading. -/
def ofConversion (r : Except Mismatch α) : Reading α := r.mapError fun m => [m.issue]

/-- A reading as seen from a value that holds the one read under a step. -/
def below (part : PathPart) (r : Reading α) : Reading α :=
  r.mapError (·.map fun issue => { issue with path := part :: issue.path })

/-- Two readings, with the issues of both. -/
def both (f : α → β → β) : Reading α → Reading β → Reading β
  | .ok a, .ok b => .ok (f a b)
  | .ok _, .error es => .error es
  | .error es, .ok _ => .error es
  | .error es, .error fs => .error (es ++ fs)

end Reading

/-- Asks for a number above zero. -/
def checkPositive (positive isPositive : Bool) (v : Value) : Reading Value :=
  if positive && !isPositive then .error [Mismatch.notPositive.issue] else .ok v

/-- Reads a whole number. -/
def readWhole (positive : Bool) (v : Value) : Reading Value := do
  let n ← Reading.ofConversion (Conversion.wholeOf v)
  checkPositive positive (0 < n) (.int n)

/-- Whether a double is above zero. -/
def isPositive (x : Double) : Bool := x.compareInt? 0 == some .gt

/-- Reads a double. -/
def readReal (positive : Bool) (v : Value) : Reading Value := do
  let x ← Reading.ofConversion (Conversion.realOf v)
  checkPositive positive (isPositive x) (.float x)

/-- Reads a text. -/
def readText : Value → Reading Value
  | .text s => .ok (.text s)
  | _ => .error [Mismatch.notText.issue]

/-- Reads a whole number or a text. -/
def readWholeOrText (v : Value) : Reading Value :=
  match v with
  | .int n => .ok (.int n)
  | .text s => .ok (.text s)
  | v => match Conversion.wholeOf v with
    | .ok n => .ok (.int n)
    | .error m => .error [m.issue [.name "int"], Mismatch.notText.issue [.name "str"]]

/-- The entry of a field, with the name it is given under. -/
def find? (field : ModelField) (es : List (Key × Value)) : Option (String × Value) :=
  match Entries.get? (.text field.name) es with
  | some v => some (field.name, v)
  | none => field.otherName.bind fun name => (Entries.get? (.text name) es).map (name, ·)

/-- The mismatch of a value that is no dictionary. -/
def notRecord : Option String → Mismatch
  | some title => .notRecord title
  | none => .notDictionary

/-- The entries of a record as it is given back. -/
def dropNulls (title : Option String) (es : List (Key × Value)) : List (Key × Value) :=
  if title.isSome then es.filter (!·.2.isNull) else es

/-- Reads the items of a list, numbered from `i`. -/
def readItems (read : Value → Reading Value) (i : Nat) : List Value → Reading (List Value)
  | [] => .ok []
  | v :: vs => Reading.both List.cons ((read v).below (.index i)) (readItems read (i + 1) vs)

mutual

/-- Reads a value. -/
def read : Model → Value → Reading Value
  | whole positive, v => readWhole positive v
  | real positive, v => readReal positive v
  | text, v => readText v
  | wholeOrText, v => readWholeOrText v
  | nullable inner, v => if v.isNull then .ok .null else read inner v
  | list item, .list vs =>
    (readItems (fun v => read item v) 0 vs).map .list
  | list _, _ => .error [Mismatch.notList.issue]
  | record title fields, .dict es => (readFields fields es).map fun es => .dict (dropNulls title es)
  | record title _, _ => .error [(notRecord title).issue]

/-- Reads the fields of a record. -/
def readFields : List (ModelField × Model) → List (Key × Value) → Reading (List (Key × Value))
  | [], _ => .ok []
  | (field, model) :: rest, es =>
    let entry (v : Value) : List (Key × Value) := [(.text field.name, v)]
    let first : Reading (List (Key × Value)) := match find? field es with
      | some (name, v) => ((read model v).below (.name name)).map entry
      | none => match field.absence with
        | .required => .error [Mismatch.missing.issue [.name field.name]]
        | .default v => .ok (entry v)
        | .optional => .ok []
    Reading.both (· ++ ·) first (readFields rest es)

end

/-- Reads a value and reports unions by their first issue. -/
def validate (model : Model) (v : Value) : Reading Value :=
  (model.read v).mapError (Issue.mergeUnions v)

end Model

end RowPipeline
