/-!
Operators and how they bind.

Arithmetic, boolean and assignment operators are written as runs of operator
characters. Member access and index access have a notation of their own behind
an expression; they bind tightest of all.
-/

namespace Shading

/-! ### Written operators -/

inductive ArithmeticOperator where
  | add
  | subtract
  | multiply
  | divide
  | bitAnd
  | bitOr
  | bitXor
  | bitNot
deriving DecidableEq, Repr, Inhabited

inductive BooleanOperator where
  | equal
  | notEqual
  | less
  | greater
  | lessOrEqual
  | greaterOrEqual
  | and
  | or
  | not
deriving DecidableEq, Repr, Inhabited

namespace ArithmeticOperator

def symbol : ArithmeticOperator → Char
  | add => '+'
  | subtract => '-'
  | multiply => '*'
  | divide => '/'
  | bitAnd => '&'
  | bitOr => '|'
  | bitXor => '^'
  | bitNot => '~'

def ofChar? : Char → Option ArithmeticOperator
  | '+' => some add
  | '-' => some subtract
  | '*' => some multiply
  | '/' => some divide
  | '&' => some bitAnd
  | '|' => some bitOr
  | '^' => some bitXor
  | '~' => some bitNot
  | _ => none

theorem ofChar?_symbol (operator : ArithmeticOperator) :
    ofChar? operator.symbol = some operator := by
  cases operator <;> rfl

end ArithmeticOperator

namespace BooleanOperator

def symbol : BooleanOperator → String
  | equal => "=="
  | notEqual => "!="
  | less => "<"
  | greater => ">"
  | lessOrEqual => "<="
  | greaterOrEqual => ">="
  | and => "&&"
  | or => "||"
  | not => "!"

end BooleanOperator

/-! ### Binding -/

/-- Binding strength, loosest first. `lowest` lies below every operator and is
the bound of a whole expression. -/
inductive Precedence where
  | lowest
  | assignment
  | logicalOr
  | logicalAnd
  | bitOr
  | bitXor
  | bitAnd
  | equality
  | relational
  | additive
  | multiplicative
  | prefixed
  | access
deriving DecidableEq, Repr, Inhabited

namespace Precedence

def rank : Precedence → Nat
  | lowest => 0
  | assignment => 1
  | logicalOr => 2
  | logicalAnd => 3
  | bitOr => 4
  | bitXor => 5
  | bitAnd => 6
  | equality => 7
  | relational => 8
  | additive => 9
  | multiplicative => 10
  | prefixed => 11
  | access => 12

instance : LE Precedence where
  le left right := left.rank ≤ right.rank

instance : LT Precedence where
  lt left right := left.rank < right.rank

instance (left right : Precedence) : Decidable (left ≤ right) :=
  inferInstanceAs (Decidable (left.rank ≤ right.rank))

instance (left right : Precedence) : Decidable (left < right) :=
  inferInstanceAs (Decidable (left.rank < right.rank))

instance : Ord Precedence where
  compare left right := compare left.rank right.rank

end Precedence

/-- Where an operator may stand: before its operand, between two, or either. -/
inductive Fixity where
  | beforeOnly
  | betweenOnly
  | either
deriving DecidableEq, Repr

inductive Operator where
  | arithmetic (operator : ArithmeticOperator)
  | boolean (operator : BooleanOperator)
  | assign
  | compoundAssign (operator : ArithmeticOperator)
  | member
  | index
deriving DecidableEq, Repr, Inhabited

namespace Operator

/-- The operator table: how tightly each operator binds between two operands and
where it may stand. -/
def entry : Operator → Precedence × Fixity
  | arithmetic .add => (.additive, .betweenOnly)
  | arithmetic .subtract => (.additive, .either)
  | arithmetic .multiply => (.multiplicative, .betweenOnly)
  | arithmetic .divide => (.multiplicative, .betweenOnly)
  | arithmetic .bitAnd => (.bitAnd, .betweenOnly)
  | arithmetic .bitOr => (.bitOr, .betweenOnly)
  | arithmetic .bitXor => (.bitXor, .betweenOnly)
  | arithmetic .bitNot => (.prefixed, .beforeOnly)
  | boolean .not => (.prefixed, .beforeOnly)
  | boolean .equal => (.equality, .betweenOnly)
  | boolean .notEqual => (.equality, .betweenOnly)
  | boolean .less => (.relational, .betweenOnly)
  | boolean .greater => (.relational, .betweenOnly)
  | boolean .lessOrEqual => (.relational, .betweenOnly)
  | boolean .greaterOrEqual => (.relational, .betweenOnly)
  | boolean .and => (.logicalAnd, .betweenOnly)
  | boolean .or => (.logicalOr, .betweenOnly)
  | assign => (.assignment, .betweenOnly)
  | compoundAssign _ => (.assignment, .betweenOnly)
  | member => (.access, .betweenOnly)
  | index => (.access, .betweenOnly)

def precedence (operator : Operator) : Precedence := operator.entry.1

def fixity (operator : Operator) : Fixity := operator.entry.2

def standsBefore (operator : Operator) : Bool := operator.fixity != .betweenOnly

def standsBetween (operator : Operator) : Bool := operator.fixity != .beforeOnly

def operandPrecedence (_ : Operator) : Precedence := .prefixed

/-- Member access and index access, which are written behind their left operand. -/
def isAccess : Operator → Bool
  | member => true
  | index => true
  | _ => false

def text : Operator → String
  | arithmetic operator => "'" ++ String.singleton operator.symbol ++ "'"
  | boolean operator => "'" ++ operator.symbol ++ "'"
  | assign => "'='"
  | compoundAssign operator => "'" ++ String.singleton operator.symbol ++ "='"
  | member => "member access"
  | index => "index access"

end Operator

end Shading
