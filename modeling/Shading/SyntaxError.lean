import Shading.Text.Character
import Shading.Token

/-!
What can be wrong with a text, and how a message puts it.

Every fault is fatal and has one place. The wording is fixed here and nowhere
else.
-/

namespace Shading

inductive Fault where
  /-- A character that begins no lexeme, or a second point in a numeral. -/
  | unexpectedSymbol (symbol : Char)
  | invalidOperatorRun (run : String)
  /-- The tokens ended where one was needed. -/
  | unexpectedEnd
  | unexpectedToken (kind : Token.Kind)
  /-- The tokens ended where an expression was needed. -/
  | expectedExpression
  /-- The tokens ended behind the name of a function. -/
  | expectedParameterList
  | invalidPrefixOperator (operator : Operator)
  | invalidInfixOperator (operator : Operator)
  | unsupportedType (found : Token.Kind)
deriving DecidableEq

namespace Fault

def description : Fault → String
  | unexpectedSymbol symbol => "unexpected symbol '" ++ Character.escaped symbol ++ "'"
  | invalidOperatorRun run => "\"" ++ run ++ "\" is not a valid operator"
  | unexpectedEnd => "unexpected end of input"
  | unexpectedToken kind => "unexpected token " ++ kind.text
  | expectedExpression => "an expression was expected"
  | expectedParameterList => "expected parameter list"
  | invalidPrefixOperator operator => operator.text ++ " is not a valid prefix operator"
  | invalidInfixOperator operator => operator.text ++ " is not a valid infix operator"
  | unsupportedType found => "unsupported or invalid variable type: " ++ found.text

def agrees : Fault → Fault → Bool
  | unexpectedToken left, unexpectedToken right => left.agrees right
  | unsupportedType left, unsupportedType right => left.agrees right
  | left, right => left = right

end Fault

structure SyntaxError where
  location : Location
  fault : Fault
deriving DecidableEq

namespace SyntaxError

def description (failure : SyntaxError) : String := failure.fault.description

def message (failure : SyntaxError) : String :=
  "Parse error at line " ++ toString failure.location.shownLine ++ ", column " ++
    toString failure.location.shownColumn ++ ": " ++ failure.description

def agrees (left right : SyntaxError) : Bool :=
  left.location = right.location && left.fault.agrees right.fault

end SyntaxError

end Shading
