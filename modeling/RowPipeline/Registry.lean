import RowPipeline.Plugin
import RowPipeline.Text.Quoted

/-!
# The registry of plugins

Plugins are found under references `module:attribute`. A module is a table from attributes to what they
hold: a plugin descriptor, a descriptor with settings of its own, nothing, or something that is no plugin.
Module names may have parts between points, but registered modules have no parts below them.
-/

namespace RowPipeline

/-- A plugin and the settings that its instances get. -/
structure Factory where
  descriptor : Descriptor
  settings : Settings

/-- What an attribute of a module holds. -/
inductive Attribute where
  | descriptor (d : Descriptor)
  | factory (f : Factory)
  | foreign (typeName : String)

/-- The attributes of a module; one that is empty is there as none. -/
abbrev PluginModule := List (String × Option Attribute)

/-- The modules that plugins are found in. -/
structure Registry where
  modules : List (String × PluginModule)

namespace Registry

/-- The parts of a reference, around its first colon; none of them may be empty. -/
def splitTarget? (target : String) : Option (String × String) :=
  let cs := target.toList
  let name := cs.takeWhile (· != ':')
  let member := (cs.dropWhile (· != ':')).drop 1
  if name.isEmpty || member.isEmpty then none else some (String.ofList name, String.ofList member)

/-- Why a module is not found: a missing first part, or a part below a registered module. -/
def missingModule (r : Registry) (name : String) : String :=
  let parts := name.splitOn "."
  let first := parts.headD ""
  if (r.modules.lookup first).isSome then
    "No module named " ++ Text.quoted (".".intercalate (parts.take 2)) ++ "; " ++ Text.quoted first ++
      " is not a package"
  else "No module named " ++ Text.quoted first

/-- The attributes of a module. -/
def members (r : Registry) (name : String) : Except Failure PluginModule :=
  if name.toList.head? = some '.' then .error .wrongType
  else match r.modules.lookup name with
    | some attributes => .ok attributes
    | none => .error (.raised .missingPluginPath ("Cannot import plugin module `" ++ name ++ "`: " ++
        r.missingModule name))

/-- What a reference leads to. -/
def find (r : Registry) (target : String) : Except Failure Attribute := do
  match splitTarget? target with
  | none => .error (.raised .missingPluginPath
      ("Plugin `" ++ target ++ "` must be given as `module:attribute`."))
  | some (name, member) =>
    match ((← r.members name).lookup member).join with
    | none => .error (.raised .missingPluginMethod
        ("Module `" ++ name ++ "` has no attribute `" ++ member ++ "`."))
    | some found => return found

/-- The plugin that a reference leads to. Settings of the caller go before those of the plugin, and these
before the default ones. -/
def load (r : Registry) (target : String) (settings : Option Settings) (default : Settings) :
    Traced Factory := do
  let found ← r.find target
  Traced.emit (.loaded target)
  match found with
  | .factory f => return { f with settings := settings.getD f.settings }
  | .descriptor d => return ⟨d, settings.getD default⟩
  | .foreign typeName => Traced.fail (.raised .pluginInitialization ("`" ++ target ++ "` is a " ++
      typeName ++ ", expected a PluginDescriptor or a PluginFactory."))

end Registry

end RowPipeline
