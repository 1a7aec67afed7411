import RowPipeline.Validation.Model

/-!
# Stock models

The models that stock plugins declare, under their names.
-/

namespace RowPipeline.Stock

namespace Model

open RowPipeline.Model

/-- A field that has to be there. -/
def required (name : String) (model : Model) : ModelField × Model := ({ name }, model)

/-- A field with a default. -/
def withDefault (name : String) (model : Model) (default : Value) : ModelField × Model :=
  ({ name, absence := .default default }, model)

/-- The model of how much of a machine was used, and for how long. -/
def usage : Model := record (some "Usage") [
  required "duration" (real true),
  withDefault "vCPUs" (whole true) (.int 1),
  withDefault "memory" (whole true) (.int 16),
  withDefault "usage-ratio" (real true) (.int 1),
  withDefault "time" (nullable (real false)) .null]

/-- The config of a plugin that scales one number of cores to another. -/
def sci : Model := record (some "Sci") [
  withDefault "baseline-vcpus" (whole false) (.int 1),
  withDefault "sample-vcpus" (whole false) (.int 2),
  withDefault "output-parameter" (nullable text) .null]

/-- The config of a plugin that multiplies a parameter; its names may be given with underscores. -/
def multiply : Model := record (some "Multiply") [
  required "coefficient" (real false),
  ({ name := "input-parameter", otherName := some "input_parameter" }, text),
  ({ name := "output-parameter", otherName := some "output_parameter", absence := .default .null },
    nullable text)]

/-- One amount, a number or a text. -/
def amount : Model := record (some "Amount") [required "amount" wholeOrText]

/-- A list of whole numbers. -/
def numbers : Model := list (whole false)

/-- A list of whole numbers under a name. -/
def itemList : Model := record (some "Items") [required "items" numbers]

/-- A record that holds others. -/
def nested : Model := record (some "Nested") [
  required "name" text,
  required "child" itemList,
  withDefault "parts" (list amount) (.list [])]

/-- A plain dictionary of two entries. -/
def pair : Model := record none [
  required "left" (whole false),
  ({ name := "right", absence := .optional }, text)]

/-- The models under their names. -/
def all : List (String × Model) := [
  ("Usage", usage), ("Sci", sci), ("Multiply", multiply), ("Amount", amount), ("Items", itemList),
  ("Nested", nested), ("Pair", pair), ("IntList", numbers)]

/-- The model of a name. -/
def ofName? (name : String) : Option Model := all.lookup name

end Model

end RowPipeline.Stock
