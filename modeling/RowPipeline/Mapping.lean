import RowPipeline.Expression.Shape

/-!
# Parameter mapping

A mapping translates the names a plugin uses inside (*internal* names) into the names of the rows outside
(*external* names). On a row, `mapInput` adds a copy of each external field under its internal name,
`removeMapped` takes such copies away again, and `mapOutput` renames internal fields to external ones.

A config is mapped in depth: keys and texts that are internal names are renamed, and in a marked
expression the name it refers to is renamed inside the text. The internal names that were applied are the
*consumed* ones; `mapConfig` also removes them from the table.
-/

namespace RowPipeline

open Expression

/-- A table from internal to external names. -/
abbrev Mapping := Fields String String

namespace Mapping

/-- The external name of a field; only texts are names. -/
def external? (m : Mapping) : Key → Option String
  | .text s => m.get? s
  | _ => none

/-- Adds the external fields of a row under their internal names. -/
def addInternal (row : Record) (done : Record) : List (String × String) → Record
  | [] => done
  | (inner, outer) :: rest =>
    match row.get? (.text outer) with
    | some v => addInternal row (done.insert (.text inner) v) rest
    | none => addInternal row done rest

/-- The row with its external fields copied to their internal names. -/
def mapInput (m : Mapping) (row : Record) : Record := addInternal row row m.entries

/-- The row without its fields under internal names. -/
def removeMapped (m : Mapping) (row : Record) : Record := row.filter fun k _ => (m.external? k).isNone

/-- The key that a field has outside. -/
def rename (m : Mapping) (k : Key) : Key := match m.external? k with
  | some outer => .text outer
  | none => k

/-- The row with internal names renamed to external ones. -/
def mapOutput (m : Mapping) (row : Record) : Record :=
  .ofList (row.entries.map fun (k, v) => (m.rename k, v))

/-! ### Names inside expressions -/

/-- The tokens of a text; none if it has a character that starts no token. -/
def tokens? (cs : List Char) : Except Failure (Option (List Token)) :=
  match tokenize cs with
  | .ok ts => .ok (some ts)
  | .error (.lexical ..) => .ok none
  | .error failure => .error failure

/-- Whether a text reads as one bare name. -/
def isBareName (s : String) : Except Failure Bool := do
  match ← tokens? s.toList with
  | some [t, _] => return t.lexeme == .name s
  | _ => return false

/-- The first operand of a name: where it starts, and its quote if it has one. -/
def findOperand (name : String) (cs : List Char) : List Token → Option (Nat × Option Char)
  | [] => none
  | t :: rest =>
    if t.lexeme = .name name then some (t.position, none)
    else if t.lexeme = .quoted name then some (t.position, cs[t.position]?)
    else findOperand name cs rest

/-- An external name as an operand: in the quotes of the operand it replaces, bare if it reads as a bare
name, and in quotes of its own otherwise. -/
def operandText (external : String) (quote : Option Char) : Except Failure (List Char) := do
  let enclose (q : Char) := q :: external.toList ++ [q]
  match quote with
  | some q => return enclose q
  | none =>
    if ← isBareName external then return external.toList
    else return enclose (if external.contains '"' then '\'' else '"')

/-- A marked expression with its first operand `name` renamed; none if it does not read as tokens or has
no such operand. -/
def renameOperand (expression name external : String) : Except Failure (Option String) := do
  let cs := expression.toList
  let lead := cs.takeWhile (· != marker) ++ [marker]
  let body := (cs.dropWhile (· != marker)).drop 1
  match ← tokens? body with
  | none => return none
  | some ts =>
    match findOperand name body ts with
    | none => return none
    | some (position, quote) =>
      let replacement ← operandText external quote
      let width := name.length + if quote.isSome then 2 else 0
      return some (String.ofList
        (lead ++ body.take position ++ replacement ++ body.drop (position + width)))

/-! ### Configs -/

/-- Maps a text: an internal name is replaced, and a marked expression has the name it refers to
replaced. The consumed names come with it. -/
def mapText (m : Mapping) (s : String) : Except Failure (Value × List String) := do
  let same : Value × List String := (.text s, [])
  match m.get? s with
  | some outer => return (.text outer, [s])
  | none =>
    if !hasMarker s then return same
    match ← extractVariable (.text s) with
    | .text name =>
      match m.get? name with
      | none => return same
      | some outer =>
        match ← renameOperand s name outer with
        | some renamed => return (.text renamed, [name])
        | none => return same
    | _ => return same

/-- The key a config field is mapped to, and the name consumed for it. -/
def mapKey (m : Mapping) (k : Key) : Key × List String :=
  match k, m.external? k with
  | .text inner, some outer => (.text outer, [inner])
  | k, _ => (k, [])

mutual

/-- Maps a config value in depth. -/
def mapValue (m : Mapping) : Value → Except Failure (Value × List String)
  | .scalar (.text s) => m.mapText s
  | .scalar s => .ok (.scalar s, [])
  | .list vs => do
    let (vs, used) ← mapItems m vs
    return (.list vs, used)
  | .dict es => do
    let (es, used) ← mapEntries m es
    return (.dict (Entries.putAll [] es), used)

/-- Maps list items. -/
def mapItems (m : Mapping) : List Value → Except Failure (List Value × List String)
  | [] => .ok ([], [])
  | v :: rest => do
    let (v, used) ← mapValue m v
    let (rest, more) ← mapItems m rest
    return (v :: rest, used ++ more)

/-- Maps entries; two of them may get the same key. -/
def mapEntries (m : Mapping) : List (Key × Value) → Except Failure (List (Key × Value) × List String)
  | [] => .ok ([], [])
  | (k, v) :: rest => do
    let (k, usedKey) := m.mapKey k
    let (v, used) ← mapValue m v
    let (rest, more) ← mapEntries m rest
    return ((k, v) :: rest, usedKey ++ used ++ more)

end

/-- Maps a config tree and tells the consumed names. An empty table and a config that is neither a list
nor a dictionary change nothing. -/
def mapConfigEntries (m : Mapping) (config : Value) : Except Failure (Value × List String) :=
  if m.isEmpty then .ok (config, [])
  else match config with
    | .scalar _ => .ok (config, [])
    | config => m.mapValue config

/-- Maps a config tree and removes the consumed names from the table. -/
def mapConfig (m : Mapping) (config : Value) : Except Failure (Value × Mapping) := do
  let (config, used) ← m.mapConfigEntries config
  return (config, m.eraseAll used)

/-- `mapConfig` on a config record. -/
def mapRecord (m : Mapping) (config : Record) : Except Failure (Record × Mapping) :=
  if m.isEmpty then .ok (config, m)
  else do
    let (es, used) ← m.mapEntries config.entries
    return (.ofList es, m.eraseAll used)

/-- The table of a value; entries that are no names are left out. -/
def ofValue : Value → Mapping
  | .dict es => .ofList (es.filterMap fun
    | (.text k, .text v) => some (k, v)
    | _ => none)
  | _ => ∅

/-- The table as a value. -/
def toValue (m : Mapping) : Value := .dict (m.entries.map fun (k, v) => (.text k, .text v))

end Mapping

end RowPipeline
