import RowPipeline.Value.Text

/-!
# Tokens

An expression is read as a list of tokens: number literals, field names (bare or quoted), the four
operators and an end mark. A token knows the code point it starts at.
-/

namespace RowPipeline

/-- What a token says. -/
inductive Lexeme where
  | number (value : Number)
  | name (text : String)
  | quoted (text : String)
  | plus
  | minus
  | times
  | divide
  | finish
  deriving DecidableEq

namespace Lexeme

/-- Whether this is one of the four operators. -/
def isOperator : Lexeme → Bool
  | plus | minus | times | divide => true
  | _ => false

/-- Whether this is a literal or a field name. -/
def isOperand : Lexeme → Bool
  | number _ | name _ | quoted _ => true
  | _ => false

/-- The kind of token, as reports name it. -/
def kindName : Lexeme → String
  | number _ => "NUMBER"
  | name _ => "IDENTIFIER"
  | quoted _ => "QUOTED"
  | plus => "PLUS"
  | minus => "MINUS"
  | times => "MULTIPLY"
  | divide => "DIVIDE"
  | finish => "EOF"

/-- The token's content: a number, a name without its quotes, an operator sign or nothing. -/
def value : Lexeme → Value
  | number a => .ofNumber a
  | name s => .text s
  | quoted s => .text s
  | plus => .text "+"
  | minus => .text "-"
  | times => .text "*"
  | divide => .text "/"
  | finish => .null

end Lexeme

/-- A lexeme and the position it starts at. -/
structure Token where
  lexeme : Lexeme
  position : Nat
  deriving DecidableEq

/-- The text that reports show for a token. -/
def Token.text? (t : Token) : Option String := do
  let value ← t.lexeme.value.quoted?
  return "Token(" ++ t.lexeme.kindName ++ ", " ++ value ++ ", pos=" ++ toString t.position ++ ")"

end RowPipeline
