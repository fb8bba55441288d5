import Shading.Proofs.Grammar.Shape

/-!
Ordinary programs.

These are the programs a writer means: every operator stands where its
precedence puts it without parentheses, accesses stand behind what may be
accessed, and the empty expression appears only as the value of a bare result
at the end of a block.
-/

namespace Shading

namespace Expression

/-- Trees of operands and operators whose grouping needs no further parentheses. -/
inductive OperandTree : Expression → Prop where
  | number {value : Float} {place : Location} : OperandTree (.number value place)
  | truth {value : Bool} {place : Location} : OperandTree (.truth value place)
  | declaration {type : ValueType} {name : String} {place : Location} :
      OperandTree (.declaration type name place)
  | pipeline {role : PipelineRole} {name : String} {place : Location} :
      OperandTree (.pipeline role name place)
  | call {name : String} {values : List Expression} {place : Location}
      (valuesOrdinary : ∀ value ∈ values, OperandTree value) :
      OperandTree (.call name values place)
  | parenthesized {inner : Expression} {place : Location} (innerOrdinary : OperandTree inner) :
      OperandTree (.parenthesized inner place)
  | prefixed {operator : Operator} {operand : Expression} {place : Location}
      (before : operator.standsBefore = true) (closed : operand.infixOperator? = none)
      (operandOrdinary : OperandTree operand) : OperandTree (.unary operator operand place)
  | member {left : Expression} {name : String} {namePlace place : Location}
      (accessed : left.mayBeAccessed = true) (leftOrdinary : OperandTree left) :
      OperandTree (.binary .member left (.memberName name namePlace) place)
  | index {left position : Expression} {place : Location}
      (accessed : left.mayBeAccessed = true) (leftOrdinary : OperandTree left)
      (positionOrdinary : OperandTree position) : OperandTree (.binary .index left position place)
  | infixed {operator : Operator} {left right : Expression} {place : Location}
      (written : operator.isAccess = false) (between : operator.standsBetween = true)
      (leftGroups : ∀ inner, left.infixOperator? = some inner →
        operator.precedence ≤ inner.precedence)
      (rightGroups : ∀ inner, right.infixOperator? = some inner →
        operator.precedence < inner.precedence)
      (leftOrdinary : OperandTree left) (rightOrdinary : OperandTree right) :
      OperandTree (.binary operator left right place)

mutual

/-- What may stand as an element of a program or of a block. -/
inductive OrdinaryElement : Expression → Prop where
  | operand {tree : Expression} (ordinary : OperandTree tree) : OrdinaryElement tree
  | result {value : Expression} {place : Location} (valueOrdinary : OperandTree value) :
      OrdinaryElement (.result value place)
  | conditional {conditions : List Expression} {blocks : List (List Expression)}
      {otherwise : Option (List Expression)} {place : Location}
      (nonempty : conditions ≠ []) (paired : blocks.length = conditions.length)
      (conditionsOrdinary : ∀ condition ∈ conditions, OperandTree condition)
      (blocksOrdinary : ∀ block ∈ blocks, OrdinaryBlock block)
      (otherwiseOrdinary : ∀ block, otherwise = some block → OrdinaryBlock block) :
      OrdinaryElement (.conditional conditions blocks otherwise place)
  | loop {condition : Expression} {block : List Expression} {place : Location}
      (conditionOrdinary : OperandTree condition) (blockOrdinary : OrdinaryBlock block) :
      OrdinaryElement (.loop condition block place)

/-- The elements of a block, of which the last may be a bare result. -/
inductive OrdinaryBlock : List Expression → Prop where
  | empty : OrdinaryBlock []
  | bare {valuePlace place : Location} : OrdinaryBlock [.result (.void valuePlace) place]
  | element {tree : Expression} {others : List Expression} (ordinary : OrdinaryElement tree)
      (othersOrdinary : OrdinaryBlock others) : OrdinaryBlock (tree :: others)

end

/-- How tightly a tree holds together: as its operator, if it has one between its
operands, and else as an access. -/
def grip (tree : Expression) : Precedence :=
  match tree.infixOperator? with
  | some operator => operator.precedence
  | none => .access

theorem le_grip {tree : Expression} {bound : Precedence}
    (groups : ∀ inner, tree.infixOperator? = some inner → bound ≤ inner.precedence) :
    bound ≤ tree.grip := by
  unfold grip
  cases found : tree.infixOperator? with
  | none => cases bound <;> decide
  | some inner => exact groups inner found

theorem lt_grip {tree : Expression} {bound : Precedence} (below : bound < .access)
    (groups : ∀ inner, tree.infixOperator? = some inner → bound < inner.precedence) :
    bound < tree.grip := by
  unfold grip
  cases found : tree.infixOperator? with
  | none => exact below
  | some inner => exact groups inner found

theorem grip_of_none {tree : Expression} (none : tree.infixOperator? = .none) :
    tree.grip = .access := by
  rw [grip, none]

end Expression

def Program.Ordinary (program : Program) : Prop :=
  ∀ tree ∈ program.expressions, tree.OrdinaryElement

end Shading
