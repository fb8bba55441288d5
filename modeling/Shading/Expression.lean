import Shading.Location
import Shading.Operator
import Shading.Token

/-!
Syntax trees.

Statements are expressions too. Every node carries the place of the first token
it was read from; the empty expression carries the place of the brace that
stands where an expression was looked for.
-/

namespace Shading

inductive PipelineRole where
  | uniform
  | vertexInput
  | varying
deriving DecidableEq, Repr, Inhabited

/-- A node of a syntax tree.

A conditional keeps its conditions and blocks side by side: the first block
belongs to the first condition, and so on. -/
inductive Expression where
  | number (value : Float) (location : Location)
  | truth (value : Bool) (location : Location)
  | memberName (name : String) (location : Location)
  | declaration (type : ValueType) (name : String) (location : Location)
  | pipeline (role : PipelineRole) (name : String) (location : Location)
  | binary (operator : Operator) (left right : Expression) (location : Location)
  | unary (operator : Operator) (operand : Expression) (location : Location)
  | parenthesized (inner : Expression) (location : Location)
  | call (name : String) (arguments : List Expression) (location : Location)
  | result (value : Expression) (location : Location)
  | conditional (conditions : List Expression) (blocks : List (List Expression))
      (otherwise : Option (List Expression)) (location : Location)
  | loop (condition : Expression) (block : List Expression) (location : Location)
  | void (location : Location)
deriving Inhabited

namespace Expression

def location : Expression → Location
  | number _ place => place
  | truth _ place => place
  | memberName _ place => place
  | declaration _ _ place => place
  | pipeline _ _ place => place
  | binary _ _ _ place => place
  | unary _ _ place => place
  | parenthesized _ place => place
  | call _ _ place => place
  | result _ place => place
  | conditional _ _ _ place => place
  | loop _ _ place => place
  | void place => place

def isVoid : Expression → Bool
  | void _ => true
  | _ => false

def kindName : Expression → String
  | number _ _ => "Number"
  | truth true _ => "True"
  | truth false _ => "False"
  | memberName _ _ => "String"
  | declaration _ _ _ => "Variable"
  | pipeline .uniform _ _ => "Uniform"
  | pipeline .vertexInput _ _ => "VertexInput"
  | pipeline .varying _ _ => "Varying"
  | binary _ _ _ _ => "Infix"
  | unary _ _ _ => "Prefix"
  | parenthesized _ _ => "SubExpression"
  | call _ _ _ => "FunctionCall"
  | result _ _ => "Return"
  | conditional _ _ _ _ => "If"
  | loop _ _ _ => "While"
  | void _ => "Void"

/-! ### Equality with numbers compared as numbers -/

mutual

/-- Equality of trees, places included. A number that is not a number differs
from itself. -/
def agrees : Expression → Expression → Bool
  | number leftValue leftPlace, number rightValue rightPlace =>
    leftValue == rightValue && leftPlace = rightPlace
  | truth leftValue leftPlace, truth rightValue rightPlace =>
    leftValue = rightValue && leftPlace = rightPlace
  | memberName leftName leftPlace, memberName rightName rightPlace =>
    leftName = rightName && leftPlace = rightPlace
  | declaration leftType leftName leftPlace, declaration rightType rightName rightPlace =>
    leftType = rightType && leftName = rightName && leftPlace = rightPlace
  | pipeline leftRole leftName leftPlace, pipeline rightRole rightName rightPlace =>
    leftRole = rightRole && leftName = rightName && leftPlace = rightPlace
  | binary leftOperator leftFirst leftSecond leftPlace,
      binary rightOperator rightFirst rightSecond rightPlace =>
    leftOperator = rightOperator && leftFirst.agrees rightFirst &&
      leftSecond.agrees rightSecond && leftPlace = rightPlace
  | unary leftOperator leftOperand leftPlace, unary rightOperator rightOperand rightPlace =>
    leftOperator = rightOperator && leftOperand.agrees rightOperand && leftPlace = rightPlace
  | parenthesized leftInner leftPlace, parenthesized rightInner rightPlace =>
    leftInner.agrees rightInner && leftPlace = rightPlace
  | call leftName leftArguments leftPlace, call rightName rightArguments rightPlace =>
    leftName = rightName && listAgrees leftArguments rightArguments && leftPlace = rightPlace
  | result leftValue leftPlace, result rightValue rightPlace =>
    leftValue.agrees rightValue && leftPlace = rightPlace
  | conditional leftConditions leftBlocks leftOtherwise leftPlace,
      conditional rightConditions rightBlocks rightOtherwise rightPlace =>
    listAgrees leftConditions rightConditions && blocksAgree leftBlocks rightBlocks &&
      otherwiseAgrees leftOtherwise rightOtherwise && leftPlace = rightPlace
  | loop leftCondition leftBlock leftPlace, loop rightCondition rightBlock rightPlace =>
    leftCondition.agrees rightCondition && listAgrees leftBlock rightBlock &&
      leftPlace = rightPlace
  | void leftPlace, void rightPlace => leftPlace = rightPlace
  | _, _ => false

def listAgrees : List Expression → List Expression → Bool
  | [], [] => true
  | left :: leftRest, right :: rightRest => left.agrees right && listAgrees leftRest rightRest
  | _, _ => false

def blocksAgree : List (List Expression) → List (List Expression) → Bool
  | [], [] => true
  | left :: leftRest, right :: rightRest => listAgrees left right && blocksAgree leftRest rightRest
  | _, _ => false

def otherwiseAgrees : Option (List Expression) → Option (List Expression) → Bool
  | none, none => true
  | some left, some right => listAgrees left right
  | _, _ => false

end

end Expression

structure Program where
  expressions : List Expression
deriving Inhabited

def Program.agrees (left right : Program) : Bool :=
  Expression.listAgrees left.expressions right.expressions

end Shading
