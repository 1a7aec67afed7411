import RowPipeline.Expression.Coercion
import RowPipeline.Expression.Parser

/-!
# The shape of an expression text

An expression text may start with the marker `=`, which asks for evaluation. A text is *closed* when it
holds nothing but numbers and operators in turn; a closed text has a value of its own
(`evaluateClosed`). `isExpression` tells expressions from plain field names: with the marker every text
that parses is one, without it the text needs an operator and must not be a name such as `cpu/energy`.

`isClosed` decides by one pass over the characters and does not parse.
-/

namespace RowPipeline.Expression

open Text

/-! ### The marker -/

/-- The character that asks for evaluation. -/
def marker : Char := '='

/-- Whether a text starts with the marker, blanks apart. -/
def hasMarker (s : String) : Bool := (trimLeft s.toList).head? == some marker

/-- The characters after the marker, if there is one, without surrounding blanks. -/
def body (s : String) : List Char :=
  match trim s.toList with
  | c :: rest => if c == marker then trim rest else c :: rest
  | [] => []

/-! ### Closed texts -/

/-- What a closed text may go on with. -/
inductive Expecting where
  /-- A number must start. -/
  | number
  /-- The whole part of a number has begun. -/
  | whole
  /-- A fraction digit must follow the point. -/
  | fraction
  /-- The fraction has begun. -/
  | decimals
  /-- A number has ended. -/
  | operator
  deriving DecidableEq

/-- Whether a character is one of the four operator signs. -/
def isSign (c : Char) : Bool := c == '+' || c == '-' || c == '*' || c == '/'

/-- The state after a character; none if the text cannot go on with it. -/
def Expecting.step (state : Expecting) (c : Char) : Option Expecting :=
  match state with
  | number => if isBlank c then some number else if isDigit c then some whole else none
  | whole =>
    if isDigit c then some whole
    else if c == '.' then some fraction
    else if isBlank c then some operator
    else if isSign c then some number
    else none
  | fraction => if isDigit c then some decimals else none
  | decimals =>
    if isDigit c then some decimals
    else if isBlank c then some operator
    else if isSign c then some number
    else none
  | operator => if isBlank c then some operator else if isSign c then some number else none

/-- Whether a text may end in a state. -/
def Expecting.accepts : Expecting → Bool
  | whole | decimals | operator => true
  | _ => false

/-- Whether the rest of a text completes a closed text. -/
def isClosedFrom (state : Expecting) : List Char → Bool
  | [] => state.accepts
  | c :: cs => match state.step c with
    | some next => isClosedFrom next cs
    | none => false

/-- Whether a text holds nothing but numbers and operators in turn, the marker apart. -/
def isClosed (s : String) : Bool := isClosedFrom .number (body s)

/-- The value of a closed text; none if it is undefined. -/
def evaluateClosed (s : String) : Except Failure (Option Number) := do
  let tree ← Tree.parse (body s)
  let source ← tree.render
  let result ← tree.compute (fun _ => .error (.notClosed s)) source
  result.finalize source

/-- Closed texts become their value, everything else stays as it is. -/
def evaluateSimple : Value → Except Failure Value
  | .text s => if isClosed s then .ofNumber? <$> evaluateClosed s else .ok (.text s)
  | v => .ok v

/-! ### Names -/

/-- The first run of ASCII letters joined by single hyphens or slashes. -/
def variableName? (s : String) : Option String :=
  match s.toList.dropWhile fun c => !isAsciiLetter c with
  | [] => none
  | cs => some (String.ofList (Lexer.spanJoined (fun c => c == '-' || c == '/') isAsciiLetter cs).1)

/-- The tree of a text; none if it does not parse. A numeral of too many digits is a failure. -/
def tryParse (cs : List Char) : Except Failure (Option Tree) :=
  match Tree.parse cs with
  | .ok tree => .ok (some tree)
  | .error (.lexical ..) => .ok none
  | .error (.parse _) => .ok none
  | .error failure => .error failure

/-- Whether a text is an arithmetic expression and not just a field name. -/
def isExpression (s : String) : Except Failure Bool := do
  match ← tryParse (body s) with
  | none => return false
  | some tree =>
    return hasMarker s ||
      (0 < tree.operatorCount && (variableName? s).map String.toList != some (trim s.toList))

/-- What a config value says about the field it refers to: the value of a closed text, the first name
of another text, and any other value itself. -/
def extractVariable : Value → Except Failure Value
  | .text s =>
    if isClosed s then .ofNumber? <$> evaluateClosed s
    else .ok (.text ((variableName? s).getD s))
  | v => .ok v

end RowPipeline.Expression
