import RowPipeline.Failure

/-!
# Expression trees

A tree has number literals and field names at its leaves and operators inside. `operands` lists the
names in reading order and marks those that stand right after a division sign; `fill` puts numbers in
their place, first to last.

`render` writes a tree as compact infix text and `compute` works it out; both take the meaning of a name
as an argument. Neither writes nor needs brackets: reading a tree in order gives its text.
-/

namespace RowPipeline

/-- An operator; only the first four have a meaning. -/
inductive Operator where
  | add
  | sub
  | mul
  | div
  | other (symbol : String)
  deriving DecidableEq

namespace Operator

/-- The sign of an operator. -/
def symbol : Operator → String
  | add => "+"
  | sub => "-"
  | mul => "*"
  | div => "/"
  | other symbol => symbol

/-- The operator of a sign. -/
def ofSymbol (s : String) : Operator :=
  if s = "+" then add
  else if s = "-" then sub
  else if s = "*" then mul
  else if s = "/" then div
  else other s

/-- Every sign is told apart from every other. -/
@[simp] theorem symbol_ofSymbol (s : String) : (ofSymbol s).symbol = s := by
  unfold ofSymbol
  repeat' split
  · exact ‹s = "+"›.symm
  · exact ‹s = "-"›.symm
  · exact ‹s = "*"›.symm
  · exact ‹s = "/"›.symm
  · rfl

/-- Applies an operator to two numbers; `source` is the expression that a division by zero reports. -/
def apply (op : Operator) (a b : Number) (source : String) : Except Failure Number :=
  let bounded (result : Option Number) : Except Failure Number := result.elim (.error .overflow) .ok
  match op with
  | add => bounded (a.add b)
  | sub => bounded (a.sub b)
  | mul => bounded (a.mul b)
  | div =>
    if b.isZero then .error (.arithmetic (.divisionByZero source)) else bounded (a.div b)
  | other symbol => .error (.unknownOperator symbol)

end Operator

/-- An expression. A `hole` stands for no operand; reading an expression never makes one. -/
inductive Tree where
  | literal (value : Number)
  | name (text : String) (quoted : Bool)
  | binary (op : Operator) (left right : Tree)
  | hole
  deriving DecidableEq

namespace Tree

/-- How many operators a tree has. -/
def operatorCount : Tree → Nat
  | binary _ left right => 1 + left.operatorCount + right.operatorCount
  | _ => 0

/-- The names in reading order, with their quoting. -/
def names : Tree → List (String × Bool)
  | name text quoted => [(text, quoted)]
  | binary _ left right => left.names ++ right.names
  | _ => []

/-- The names in reading order; a name is a divisor when it stands right after a division sign. -/
def operandsAfter (divisor : Bool) : Tree → List (String × Bool)
  | name text _ => [(text, divisor)]
  | binary op left right => left.operandsAfter false ++ right.operandsAfter (op = .div)
  | _ => []

/-- The names in reading order, divisors marked. -/
def operands (t : Tree) : List (String × Bool) := t.operandsAfter false

/-- The first name of a tree. -/
def firstName? (t : Tree) : Option String := t.names.head?.map Prod.fst

/-- Puts numbers in the place of the names, first to last, and gives back the numbers left over. -/
def fill : Tree → List Number → Tree × List Number
  | name _ _, a :: values => (literal a, values)
  | binary op left right, values =>
    let (left, values) := left.fill values
    let (right, values) := right.fill values
    (binary op left right, values)
  | t, values => (t, values)

/-- The text of a tree, names written by `write`. -/
def renderWith (write : String → Bool → Except Failure String) : Tree → Except Failure String
  | literal a => a.print
  | name text quoted => write text quoted
  | binary op left right => do
    let l ← left.renderWith write
    let r ← right.renderWith write
    return l ++ op.symbol ++ r
  | hole => .error .wrongType

/-- The text of a tree: bare names as they are, quoted names between double quotes. -/
def render (t : Tree) : Except Failure String :=
  t.renderWith fun text quoted => .ok (if quoted then "\"" ++ text ++ "\"" else text)

/-- The text of a tree in which names stand without quotes. -/
def renderBare (t : Tree) : Except Failure String := t.renderWith fun text _ => .ok text

/-- The number a tree comes to; `source` is the expression that a division by zero reports. -/
def compute (value : String → Except Failure Number) (source : String) : Tree → Except Failure Number
  | literal a => .ok a
  | name text _ => value text
  | binary op left right => do
    let a ← left.compute value source
    let b ← right.compute value source
    op.apply a b source
  | hole => .error .wrongType

end Tree

end RowPipeline
