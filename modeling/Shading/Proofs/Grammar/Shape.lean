import Shading.Expression

/-!
What trees look like, told by their nodes alone.

Binary nodes are of two kinds: accesses, and operators written between two
operands. `WellBuilt` says at every depth which operators may stand where, how
their precedences compare with those of their operands, and where names and
statements may not stand.
-/

namespace Shading

namespace Expression

/-- The operator that a node writes between two operands; an access has none. -/
def infixOperator? : Expression → Option Operator
  | binary operator _ _ _ => if operator.isAccess then none else some operator
  | _ => none

def isBlockStatement : Expression → Bool
  | conditional _ _ _ _ => true
  | loop _ _ _ => true
  | binary operator left _ _ => operator.isAccess && left.isBlockStatement
  | _ => false

/-- A result, or a statement with blocks, perhaps with accesses behind it. -/
def isStatement : Expression → Bool
  | result _ _ => true
  | tree => tree.isBlockStatement

def mayBeAccessed : Expression → Bool
  | void _ => false
  | unary _ _ _ => false
  | result _ _ => false
  | binary operator _ _ _ => operator.isAccess
  | _ => true

/-- The left operand of an operator binds at least as tightly, unless a statement
at its right end kept the operator out. -/
def groupsLeft (operator : Operator) (left : Expression) : Prop :=
  ∀ {inner : Operator} {first second : Expression} {place : Location},
    left = binary inner first second place → inner.isAccess = false →
      operator.precedence ≤ inner.precedence ∨ second.isStatement = true

/-- Trees that respect precedence, grouping and fixity at every depth. -/
inductive WellBuilt : Expression → Prop where
  | number {value : Float} {place : Location} : WellBuilt (.number value place)
  | truth {value : Bool} {place : Location} : WellBuilt (.truth value place)
  | declaration {type : ValueType} {name : String} {place : Location} :
      WellBuilt (.declaration type name place)
  | pipeline {role : PipelineRole} {name : String} {place : Location} :
      WellBuilt (.pipeline role name place)
  | void {place : Location} : WellBuilt (.void place)
  | infixed {operator : Operator} {left right : Expression} {place : Location}
      (written : operator.isAccess = false) (between : operator.standsBetween = true)
      (leftSolid : left.isVoid = false) (leftOperand : left.isStatement = false)
      (grouped : groupsLeft operator left)
      (tighter : ∀ inner, right.infixOperator? = some inner →
        operator.precedence < inner.precedence)
      (leftBuilt : WellBuilt left) (rightBuilt : WellBuilt right) :
      WellBuilt (.binary operator left right place)
  | member {left : Expression} {name : String} {namePlace place : Location}
      (accessed : left.mayBeAccessed = true) (leftBuilt : WellBuilt left) :
      WellBuilt (.binary .member left (.memberName name namePlace) place)
  | index {left position : Expression} {place : Location}
      (accessed : left.mayBeAccessed = true) (leftBuilt : WellBuilt left)
      (positionBuilt : WellBuilt position) : WellBuilt (.binary .index left position place)
  | prefixed {operator : Operator} {operand : Expression} {place : Location}
      (before : operator.standsBefore = true) (closed : operand.infixOperator? = none)
      (operandBuilt : WellBuilt operand) : WellBuilt (.unary operator operand place)
  | parenthesized {inner : Expression} {place : Location} (innerBuilt : WellBuilt inner) :
      WellBuilt (.parenthesized inner place)
  | call {name : String} {values : List Expression} {place : Location}
      (valuesBuilt : ∀ value ∈ values, WellBuilt value) : WellBuilt (.call name values place)
  | result {value : Expression} {place : Location} (valueBuilt : WellBuilt value) :
      WellBuilt (.result value place)
  | conditional {conditions : List Expression} {blocks : List (List Expression)}
      {otherwise : Option (List Expression)} {place : Location}
      (nonempty : conditions ≠ []) (paired : blocks.length = conditions.length)
      (conditionsBuilt : ∀ condition ∈ conditions, WellBuilt condition)
      (blocksBuilt : ∀ block ∈ blocks, ∀ element ∈ block, WellBuilt element)
      (otherwiseBuilt : ∀ block, otherwise = some block → ∀ element ∈ block, WellBuilt element) :
      WellBuilt (.conditional conditions blocks otherwise place)
  | loop {condition : Expression} {block : List Expression} {place : Location}
      (conditionBuilt : WellBuilt condition)
      (blockBuilt : ∀ element ∈ block, WellBuilt element) :
      WellBuilt (.loop condition block place)

end Expression

end Shading
