import RowPipeline.Failure
import RowPipeline.Validation.Schema
import RowPipeline.Validation.Union

/-!
# Findings

A finding is a violation of a schema at a place of a value. Checking lists the findings in the order of
the rules; a finding whose text cannot be written stands as a failure in the list, and reading the list
stops there. A check that only asks whether a value is valid looks at the first finding alone.

References are resolved through a function, so that checking is by recursion on the schema. A document
supplies that function to a depth that is enough for every value unless a definition refers to itself
without going into the value.
-/

namespace RowPipeline

/-- What a finding says of the branches of a union. -/
inductive UnionDetail where
  /-- It is not about a union. -/
  | none
  /-- The first finding of the first branch. -/
  | branch (path : Path) (message : String)
  /-- A branch accepts no value at all. -/
  | refusal

/-- A violation of a schema. -/
structure Finding where
  path : Path := []
  message : String
  code : String
  detail : UnionDetail := .none

/-- Findings in order, with a failure where a text cannot be written. -/
abbrev Findings := List (Except Failure Finding)

namespace Finding

/-- The finding as seen from a value that holds this one under a step. -/
def below (part : PathPart) (f : Finding) : Finding :=
  { f with
    path := part :: f.path
    detail := match f.detail with
      | .branch path message => .branch (part :: path) message
      | detail => detail }

/-- The issue that reports a finding. A union is reported by its first branch, and a branch that accepts no
value has no place to report. -/
def issue (f : Finding) : Except Failure Issue :=
  match f.detail with
  | .none => .ok ⟨f.path, f.message, f.code⟩
  | .branch path message => .ok ⟨path, message, Issue.unionCode⟩
  | .refusal => .error .noBranchLocation

end Finding

namespace Findings

/-- The one finding of a rule. -/
def one (code : String) (message : Except Failure String) : Findings :=
  [message.map fun text => { message := text, code }]

/-- A finding that consists of a value and what is said of it. -/
def about (code : String) (v : Value) (phrase : String) : Findings :=
  one code (v.printQuoted.map (· ++ " " ++ phrase))

/-- All findings, unless one of them cannot be written. -/
def collect (fs : Findings) : Except Failure (List Finding) := fs.mapM id

/-- Whether there is no finding. -/
def isValid : Findings → Except Failure Bool
  | [] => .ok true
  | .ok _ :: _ => .ok false
  | .error failure :: _ => .error failure

/-- The findings as seen from a value that holds the checked one under a step. -/
def below (part : PathPart) (fs : Findings) : Findings := fs.map (·.map (·.below part))

end Findings

namespace Schema

/-- The only finding of the schema without valid values. -/
def refuse (v : Value) : Findings :=
  Findings.one "None" (v.printQuoted.map ("False schema does not allow " ++ ·))

/-! ### Unions -/

/-- What is said of a value that is valid under no branch; `context` holds the findings of the branches. -/
def unmatched (code : String) (v : Value) (refused : Bool) (context : List Finding) : Findings :=
  [v.printQuoted.map fun text => {
    message := text ++ " is not valid under any of the given schemas"
    code
    detail := if refused then .refusal else match context with
      | [] => .none
      | f :: _ => .branch f.path f.message }]

/-- The branches after the first one without findings, and that branch; otherwise the findings of all. -/
def firstValid (context : List Finding) :
    List (Schema × Findings) → Except Failure (List Finding ⊕ Schema × List (Schema × Findings))
  | [] => .ok (.inl context)
  | (schema, fs) :: rest => do
    match ← fs.collect with
    | [] => return .inr (schema, rest)
    | found => firstValid (context ++ found) rest

/-- The findings of a value that should be valid under some branch. -/
def someBranch (v : Value) (branches : List (Schema × Findings)) : Findings :=
  match firstValid [] branches with
  | .error failure => [.error failure]
  | .ok (.inr _) => []
  | .ok (.inl context) => unmatched "anyOf" v (branches.any (·.1.isNothing)) context

/-- The schemas of the branches without findings. -/
def validBranches (branches : List (Schema × Findings)) : Except Failure (List Schema) := do
  return (← branches.filterM fun (_, fs) => fs.isValid).map Prod.fst

/-- The findings of a value that should be valid under exactly one branch. -/
def oneBranch (v : Value) (branches : List (Schema × Findings)) : Findings :=
  match firstValid [] branches with
  | .error failure => [.error failure]
  | .ok (.inl context) => unmatched "oneOf" v (branches.any (·.1.isNothing)) context
  | .ok (.inr (first, rest)) =>
    match validBranches rest with
    | .error failure => [.error failure]
    | .ok [] => []
    | .ok more => Findings.one "oneOf" do
      let texts ← (more ++ [first]).mapM (·.source.printQuoted)
      return (← v.printQuoted) ++ " is valid under each of " ++ ", ".intercalate texts

/-! ### Rules without schemas -/

/-- The entries of an object, none for any other value. -/
def entriesOf : Value → List (Key × Value)
  | .dict es => es
  | _ => []

/-- The text of a key in quotes. -/
def keyText (k : Key) : String := k.quoted?.getD ""

/-- The finding of names that an object may not have. -/
def unexpected (names : List Key) : Findings :=
  if names.isEmpty then []
  else
    let texts := (names.mergeSort fun a b => a.label ≤ b.label).map keyText
    Findings.one "additionalProperties" (.ok ("Additional properties are not allowed (" ++
      ", ".intercalate texts ++ (if names.length = 1 then " was" else " were") ++ " unexpected)"))

/-- The finding of a list that should be empty. -/
def surplus (vs : List Value) : Findings :=
  match vs with
  | [] => []
  | vs => Findings.one "items" do
    let text ← match vs with
      | [v] => v.printQuoted
      | vs => (Value.list vs).printQuoted
    return "Expected at most 0 items but found " ++ toString vs.length ++ " extra: " ++ text

/-- The findings of a number beyond a limit. -/
def boundFindings (kind : Bound) (limit v : Value) : Findings :=
  match limit.quantity?, v.quantity? with
  | some l, some q =>
    if kind.exceeded l q then Findings.one kind.name do
      return (← v.printQuoted) ++ " " ++ kind.phrase ++ " " ++ (← limit.printQuoted)
    else []
  | _, _ => []

/-- The findings of a text or an array beyond a limit. -/
def sizeFindings (kind : SizeBound) (limit : Nat) (v : Value) : Findings :=
  match kind.measure? v with
  | some size => if kind.exceeded limit size then Findings.about kind.name v (kind.phrase limit) else []
  | none => []

/-- The findings of a text without a match. -/
def patternFindings (source : String) (pattern : Text.Pattern) : Value → Findings
  | .text s =>
    if pattern.search s then []
    else Findings.about "pattern" (.text s) ("does not match " ++ Text.quoted source)
  | _ => []

/-- The findings of names that an object lacks. -/
def missing (names : List Key) : Value → Findings
  | .dict es => (names.filter fun k => (Entries.get? k es).isNone).flatMap fun k =>
    Findings.one "required" (.ok (keyText k ++ " is a required property"))
  | _ => []

/-! ### Checking -/

variable (resolve : String → Value → Findings)

mutual

/-- The findings of a value. -/
def findings : Schema → Value → Findings
  | anything, _ => []
  | nothing, v => refuse v
  | rules _ rs, v => rulesFindings rs v

/-- The findings of a list of rules. -/
def rulesFindings : List Rule → Value → Findings
  | [], _ => []
  | r :: rs, v => ruleFindings r v ++ rulesFindings rs v

/-- The findings of a rule. -/
def ruleFindings : Rule → Value → Findings
  | .type types, v =>
    if types.any (·.accepts v) then []
    else Findings.about "type" v ("is not of type " ++
      ", ".intercalate (types.map fun t => Text.quoted t.name))
  | .required names, v => missing names v
  | .properties schemas, v => propertyFindings schemas (entriesOf v)
  | .additional known schema, v =>
    let extra := (entriesOf v).filter fun e => !known.contains e.1
    if schema.isNothing then unexpected (extra.map Prod.fst)
    else extra.flatMap fun (k, w) => (findings schema w).below (.ofKey k)
  | .items schema, .list vs =>
    if schema.isNothing then surplus vs
    else (vs.zipIdx.map fun (w, i) => (findings schema w).below (.index i)).flatten
  | .items _, _ => []
  | .enum values, v =>
    if values.any (Value.same v) then []
    else Findings.one "enum" do
      return (← v.printQuoted) ++ " is not one of " ++ (← (Value.list values).printQuoted)
  | .const value, v =>
    if value.same v then []
    else Findings.one "const" (value.printQuoted.map (· ++ " was expected"))
  | .pattern source pattern, v => patternFindings source pattern v
  | .bound kind limit, v => boundFindings kind limit v
  | .size kind limit, v => sizeFindings kind limit v
  | .allOf branches, v => ((branchFindings branches v).map Prod.snd).flatten
  | .anyOf branches, v => someBranch v (branchFindings branches v)
  | .oneOf branches, v => oneBranch v (branchFindings branches v)
  | .not schema, v =>
    match (findings schema v).isValid with
    | .error failure => [.error failure]
    | .ok false => []
    | .ok true => Findings.one "not" do
      return (← v.printQuoted) ++ " should not be valid under " ++ (← schema.source.printQuoted)
  | .reference target, v => resolve target v

/-- The findings of the properties that an object has. A refused property is found at the object. -/
def propertyFindings : List (Key × Schema) → List (Key × Value) → Findings
  | [], _ => []
  | (k, schema) :: rest, es =>
    (match Entries.get? k es with
      | none => []
      | some w =>
        if schema.isNothing then findings schema w
        else (findings schema w).below (.ofKey k)) ++ propertyFindings rest es

/-- The findings of each branch. -/
def branchFindings : List Schema → Value → List (Schema × Findings)
  | [], _ => []
  | schema :: rest, v => (schema, findings schema v) :: branchFindings rest v

end

end Schema

namespace SchemaDocument

/-- What references to definitions start with. -/
def definitionMark : String := "#/$defs/"

/-- The definition that a reference names. -/
def lookup? (doc : SchemaDocument) (target : String) : Option Schema :=
  if target.startsWith definitionMark then
    Entries.get? (.text (String.ofList (target.toList.drop definitionMark.length))) doc.definitions
  else none

/-- Checks a value under the definition that a reference names, following at most `depth` references. -/
def resolver (doc : SchemaDocument) : Nat → String → Value → Findings
  | 0, _, _ => []
  | depth + 1, target, v =>
    match doc.lookup? target with
    | some schema => schema.findings (doc.resolver depth) v
    | none => [.error (.unresolvedReference target)]

/-- How many references the check of a value follows at most: every definition once at each level. -/
def referenceDepth (doc : SchemaDocument) (v : Value) : Nat := (doc.definitions.length + 1) * (v.depth + 1)

/-- The findings of a value. -/
def findings (doc : SchemaDocument) (v : Value) : Findings :=
  doc.root.findings (doc.resolver (doc.referenceDepth v)) v

/-- The issues of a value, in the order of their places. -/
def issues (doc : SchemaDocument) (v : Value) : Except Failure (List Issue) := do
  let found ← (doc.findings v).collect
  (found.mergeSort fun a b => a.path.isAtMost b.path).mapM Finding.issue

end SchemaDocument

end RowPipeline
