import RowPipeline.Expression.Lexer
import RowPipeline.Expression.Tree

/-!
# Reading trees

An expression is `operand (operator operand)*`. Multiplication and division bind closer than addition and
subtraction, and equal operators group from the left; there are no brackets and there is no sign.

One pass over the tokens keeps the sum read so far with the operator that waits for its right side
(`Pending`) and the product being read; the first token out of turn is the error.
-/

namespace RowPipeline

namespace Lexeme

/-- The operator of a product. -/
def productOperator? : Lexeme → Option Operator
  | times => some .mul
  | divide => some .div
  | _ => none

/-- The operator of a sum. -/
def sumOperator? : Lexeme → Option Operator
  | plus => some .add
  | minus => some .sub
  | _ => none

end Lexeme

/-- A sum whose last term is still being read. -/
inductive Pending where
  | nothing
  | sum (left : Tree) (op : Operator)

/-- The sum with its last term. -/
def Pending.close : Pending → Tree → Tree
  | nothing, term => term
  | sum left op, term => .binary op left term

namespace Tree

/-- The leaf of an operand token. -/
def ofOperand (t : Token) : Except ParseError Tree :=
  match t.lexeme with
  | .number a => .ok (.literal a)
  | .name text => .ok (.name text false)
  | .quoted text => .ok (.name text true)
  | .finish => .error (.operandExpected t)
  | _ => .error (.unexpected t)

/-- Reads operators and operands in turn up to the end mark. -/
def readOn (pending : Pending) (product : Tree) : List Token → Except ParseError Tree
  | t :: operand :: rest =>
    match t.lexeme.productOperator?, t.lexeme.sumOperator? with
    | some op, _ => do
      let right ← ofOperand operand
      readOn pending (.binary op product right) rest
    | none, some op => do
      let term ← ofOperand operand
      readOn (.sum (pending.close product) op) term rest
    | none, none => .error (.unexpected t)
  | [t] => if t.lexeme = .finish then .ok (pending.close product) else .error (.unexpected t)
  | [] => .ok (pending.close product)

/-- The tree of a token list that ends with the end mark. -/
def ofTokens : List Token → Except ParseError Tree
  | [] => .error .empty
  | t :: rest =>
    if t.lexeme = .finish then .error .empty
    else do
      let first ← ofOperand t
      readOn .nothing first rest

/-- Reads an expression. -/
def parse (cs : List Char) : Except Failure Tree := do
  let tokens ← tokenize cs
  (ofTokens tokens).mapError .parse

end Tree

end RowPipeline
