import RowPipeline.Validation.Issue

/-!
# Issues of unions

When a value fits no member of a union, the check of every member reports its own issues, and the path of
each holds the *tag* of the member: a name that does not occur in the value. `splitAtTag` finds the first
tag by walking the value along the path. `Issue.mergeUnions` reports the first issue of each union only,
without its tag and under the code of unions.
-/

namespace RowPipeline

/-- The code of an issue of a union. -/
def Issue.unionCode : String := "invalid_union"

/-- The code of an issue whose path ends in the name of a missing entry. -/
def Issue.missingCode : String := "missing"

/-- Splits a path at its first member tag: a name that leads nowhere. The last name of a path is no tag
where `missing` holds and the walk has come to a dictionary. -/
def Value.splitAtTag (missing : Bool) : Value → Path → Option (Path × Path)
  | _, [] => none
  | v, part :: rest =>
    match v.step? part with
    | some next => (next.splitAtTag missing rest).map fun (front, back) => (part :: front, back)
    | none =>
      match v, part with
      | _, .index _ => none
      | .dict _, .name _ => if missing && rest.isEmpty then none else some ([], rest)
      | _, .name _ => some ([], rest)

namespace Issue

/-- `mergeUnions` after unions were reported at the paths `seen`. -/
def mergeUnionsFrom (value : Value) (seen : List Path) : List Issue → List Issue
  | [] => []
  | issue :: rest =>
    match value.splitAtTag (issue.code == missingCode) issue.path with
    | none => issue :: mergeUnionsFrom value seen rest
    | some (front, back) =>
      if seen.contains front then mergeUnionsFrom value seen rest
      else ⟨front ++ back, issue.message, unionCode⟩ :: mergeUnionsFrom value (seen ++ [front]) rest

/-- Reports each union of a value by its first issue only; other issues stay as they are. -/
def mergeUnions (value : Value) (issues : List Issue) : List Issue := mergeUnionsFrom value [] issues

end Issue

end RowPipeline
