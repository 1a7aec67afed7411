import RowPipeline.Value.Text
import RowPipeline.Text.Case

/-!
# Issues

An issue says what is wrong at one place of a value. The place is a path of names and indices, written
`foo.bar[2]`. An issue at the root is reported by its message alone; any other one is reported with its
path, the number of the row if there is one, and its code.
-/

namespace RowPipeline

/-! ### Paths -/

/-- One step into a value: the name of an entry or the index of an item. -/
inductive PathPart where
  | name (s : String)
  | index (i : Int)
  deriving DecidableEq

/-- A place in a value, as the steps that lead to it. -/
abbrev Path := List PathPart

namespace PathPart

/-- The step to the entry of a key. -/
def ofKey : Key → PathPart
  | .text s => name s
  | .int i => index i
  | k => name k.label

/-- The bare text of a step. -/
def text : PathPart → String
  | name s => s
  | index i => toString i

/-- A step as paths are written; an index stands in brackets. -/
def written : PathPart → String
  | name s => s
  | index i => "[" ++ toString i ++ "]"

end PathPart

namespace Path

/-- Leaves out each point in front of an opening bracket. -/
def closeUp : List Char → List Char
  | '.' :: '[' :: rest => '[' :: closeUp rest
  | c :: rest => c :: closeUp rest
  | [] => []

/-- The written form of a path: its steps with points between them, and none in front of an index. -/
def flatten (path : Path) : String :=
  String.ofList (closeUp (".".intercalate (path.map PathPart.written)).toList)

/-- The texts of the steps of a path, by which issues are put in order. -/
def sortKey (path : Path) : List String := path.map PathPart.text

/-- Whether a path does not come after another: the texts of their steps are compared one by one, and a
path comes before those that go on from it. -/
def isAtMost (p q : Path) : Bool := !q.sortKey.lex p.sortKey fun s t => s < t

@[simp] theorem closeUp_nil : closeUp [] = [] := rfl

@[simp] theorem flatten_nil : flatten [] = "" := rfl

end Path

/-- The part of a value that a step leads to. -/
def Value.step? : Value → PathPart → Option Value
  | .dict es, .name s => Entries.get? (.text s) es
  | .dict es, .index i => Entries.get? (.int i) es
  | .list vs, .index i => if 0 ≤ i then vs[i.toNat]? else none
  | _, _ => none

/-! ### Issues -/

/-- What is wrong at a place of a value. -/
structure Issue where
  path : Path
  message : String
  code : String
  deriving DecidableEq

namespace Issue

/-- The report of an issue in a row of a given number. -/
def report (index : Option Int) (issue : Issue) : String :=
  let place := issue.path.flatten
  if place.isEmpty then issue.message
  else
    let row := match index with
      | some i => " at index " ++ toString i
      | none => ""
    "\"" ++ place ++ "\" parameter is " ++ Text.lower issue.message ++ row ++ ". Error code: " ++
      issue.code ++ "."

/-- The reports of issues, one to a line. -/
def reportAll (index : Option Int) (issues : List Issue) : String :=
  "\n".intercalate (issues.map (report index))

end Issue

end RowPipeline
