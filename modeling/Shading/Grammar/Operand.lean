import Shading.Expression
import Shading.Reading

/-!
Operands: what stands between operators.

Forms contain expressions, and expressions are forms. Each form is written for
any reading of inner expressions; the knot is tied in one place, where the
nesting gets its bound. Variables with a type and values of the pipeline are
operands too, so an initial value is an assignment to the declaration.
-/

namespace Shading.Grammar

/-! ### Inner expressions -/

/-- How to read an inner expression whose operators bind tighter than a bound. It
has no answer at the end of the tokens. -/
abbrev Inner := Precedence → Reading (Option Expression)

def required (inner : Inner) (bound : Precedence) : Reading Expression := do
  match ← inner bound with
  | some expression => pure expression
  | none => Reading.failAtLast .expectedExpression

/-! ### Named values -/

def variableType? : Token.Kind → Option ValueType
  | .typeName (.value type) => some type
  | _ => none

def pipelineRole? : Token.Kind → Option PipelineRole
  | .keyword .uniform => some .uniform
  | .keyword .input => some .vertexInput
  | .keyword .varying => some .varying
  | _ => none

def variableForm (start : Location) : Reading Expression := do
  Reading.skip
  let typeToken ← Reading.next
  match variableType? typeToken.kind with
  | none => .fail ⟨typeToken.location, .unsupportedType typeToken.kind⟩
  | some type =>
    let (name, _) ← Reading.expectName
    pure (.declaration type name start)

/-- A value of the pipeline: the sign at `start`, a role and a name. The name is
read before the role is judged. -/
def pipelineForm (start : Location) : Reading Expression := do
  Reading.skip
  let roleToken ← Reading.next
  let (name, _) ← Reading.expectName
  match pipelineRole? roleToken.kind with
  | none => Reading.unexpected roleToken
  | some role => pure (.pipeline role name start)

/-! ### Calls -/

inductive ArgumentPlace where
  | atFirst
  | afterArgument
  | afterComma
deriving DecidableEq

/-- The arguments of a call up to the closing parenthesis. Commas stand between
arguments only, so one before the closing parenthesis is refused. -/
def arguments (inner : Inner) : Nat → ArgumentPlace → Reading (List Expression)
  | 0, _ => pure []
  | limit + 1, place => do
    match ← Reading.peek with
    | none => Reading.failAtLast .unexpectedEnd
    | some token =>
      match token.kind, place with
      | .mark .rightParenthesis, .afterComma => Reading.unexpected token
      | .mark .rightParenthesis, _ => do
        Reading.skip
        pure []
      | .mark .comma, .afterArgument => do
        Reading.skip
        arguments inner limit .afterComma
      | .mark .comma, _ => Reading.unexpected token
      | _, .afterArgument => Reading.unexpected token
      | _, _ => do
        let argument ← required inner .lowest
        let others ← arguments inner limit .afterArgument
        pure (argument :: others)

def callForm (inner : Inner) (limit : Nat) (name : String) (start : Location) :
    Reading Expression := do
  Reading.skip
  match ← Reading.peek with
  | none => .fail ⟨start, .expectedParameterList⟩
  | some _ =>
    let _ ← Reading.expect (.mark .leftParenthesis)
    let values ← arguments inner limit .atFirst
    pure (.call name values start)

/-! ### Operators before an operand, parentheses -/

def unaryForm (inner : Inner) (operator : Operator) (start : Location) : Reading Expression := do
  Reading.skip
  if operator.standsBefore then
    let operand ← required inner operator.operandPrecedence
    pure (.unary operator operand start)
  else
    .fail ⟨start, .invalidPrefixOperator operator⟩

def parenthesizedForm (inner : Inner) (start : Location) : Reading Expression := do
  Reading.skip
  let expression ← required inner .lowest
  let _ ← Reading.expect (.mark .rightParenthesis)
  pure (.parenthesized expression start)

def singleForm (expression : Expression) : Reading Expression := do
  Reading.skip
  pure expression

def operand (inner : Inner) (limit : Nat) (token : Token) : Reading Expression :=
  match token.kind with
  | .name name => callForm inner limit name token.location
  | .keyword .var => variableForm token.location
  | .mark .at => pipelineForm token.location
  | .mark .leftParenthesis => parenthesizedForm inner token.location
  | .number value => singleForm (.number value token.location)
  | .keyword .true => singleForm (.truth true token.location)
  | .keyword .false => singleForm (.truth false token.location)
  | kind =>
    match kind.operator? with
    | some operator => unaryForm inner operator token.location
    | none => Reading.unexpected token

end Shading.Grammar
