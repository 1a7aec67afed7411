import RowPipeline.Registry
import RowPipeline.Stock.Implementation
import RowPipeline.Stock.Model

/-!
# Stock plugins

A module of plugins made of the stock parts.
-/

namespace RowPipeline.Stock

namespace Plugin

/-- A plugin with a stock implementation. -/
def simple (i : Stock.Implementation) (allow : Option (List Key)) : Descriptor :=
  { implementation := i.run, allow }

/-- Doubles the energy of every row. -/
def double : Factory := {
  descriptor := simple (.product "energy" (.fixed (.int 2)) (.fixed (.text "energy"))) none
  settings := {} }

/-- Multiplies the field `cpu` by a coefficient that may be an expression. -/
def multiply : Descriptor :=
  simple (.product "cpu" (.fromConfig "coefficient") (.fromConfig "output-parameter")) (some ["coefficient"])

/-- Answers the rows, evaluated. -/
def identity : Descriptor := simple .identity (some [])

/-- Answers the rows as they are. -/
def plain : Descriptor := simple .identity none

/-- Fails. -/
def failing : Descriptor := simple (.fail (.raised .processExecution "plugin failed")) none

/-- Validates its config and its rows by models. -/
def sci : Descriptor := {
  implementation := Stock.Implementation.identity.run
  configValidator := .checker (.model Model.sci)
  rowValidator := .checker (.model Model.usage) }

end Plugin

/-- The attributes of the stock module: its plugins, something that is none, and an empty one. -/
def attributes : PluginModule := [
  ("Double", some (.factory Plugin.double)), ("Multiply", some (.descriptor Plugin.multiply)),
  ("Identity", some (.descriptor Plugin.identity)), ("Plain", some (.descriptor Plugin.plain)),
  ("Fail", some (.descriptor Plugin.failing)), ("Sci", some (.descriptor Plugin.sci)),
  ("NOT_A_PLUGIN", some (.foreign "int")), ("NOTHING", none)]

/-- The registry with the stock module under a name. -/
def registry (name : String) : Registry := ⟨[(name, attributes)]⟩

end RowPipeline.Stock
