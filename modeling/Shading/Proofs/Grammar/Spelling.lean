import Shading.Expression

/-!
The token kinds a tree is spelled with.

Places do not matter here. Semicolons are not part of any tree: a layout says
how many of them stand behind the elements of a program and of its blocks, and
the tight layout has none. The empty expression is spelled with nothing.
-/

namespace Shading

/-- How many semicolons stand behind the elements of a sequence: behind each that
another element follows, and behind the last. -/
structure Layout where
  between : Nat
  last : Nat
deriving DecidableEq, Repr

def Layout.tight : Layout := ⟨0, 0⟩

def Layout.closed : Layout := ⟨1, 1⟩

namespace Spelling

def joined (between last : List Token.Kind) : List (List Token.Kind) → List Token.Kind
  | [] => []
  | [part] => part ++ last
  | part :: next :: others => part ++ between ++ joined between last (next :: others)

def semicolons (count : Nat) : List Token.Kind :=
  List.replicate count (.mark .semicolon)

def sequence (layout : Layout) (elements : List (List Token.Kind)) : List Token.Kind :=
  joined (semicolons layout.between) (semicolons layout.last) elements

def blockRest (layout : Layout) (elements : List (List Token.Kind)) : List Token.Kind :=
  sequence layout elements ++ [.mark .rightBrace]

def arguments (values : List (List Token.Kind)) : List Token.Kind :=
  joined [.mark .comma] [] values ++ [.mark .rightParenthesis]

def arm (condition block : List Token.Kind) : List Token.Kind :=
  .mark .leftParenthesis :: condition ++
    .mark .rightParenthesis :: .mark .leftBrace :: block

def arms (word : Token.Keyword) :
    List (List Token.Kind) → List (List Token.Kind) → List Token.Kind
  | condition :: conditions, block :: blocks =>
    .keyword word :: arm condition block ++ arms .elif conditions blocks
  | _, _ => []

end Spelling

def Operator.kind : Operator → Token.Kind
  | arithmetic operator => .arithmetic operator
  | boolean operator => .boolean operator
  | assign => .assign
  | compoundAssign operator => .compoundAssign operator
  | member => .mark .dot
  | index => .mark .leftBracket

def Operator.closing : Operator → List Token.Kind
  | index => [.mark .rightBracket]
  | _ => []

theorem Operator.kind_of_operator? {kind : Token.Kind} {operator : Operator}
    (stands : kind.operator? = some operator) : kind = operator.kind := by
  cases kind with
  | arithmetic symbol => cases stands; rfl
  | boolean symbol => cases stands; rfl
  | assign => cases stands; rfl
  | compoundAssign symbol => cases stands; rfl
  | number value => cases stands
  | name text => cases stands
  | keyword word => cases stands
  | typeName type => cases stands
  | mark sign => cases stands

theorem Operator.operator?_kind {operator : Operator} (plain : operator.isAccess = false) :
    operator.kind.operator? = some operator := by
  cases operator with
  | arithmetic symbol => rfl
  | boolean symbol => rfl
  | assign => rfl
  | compoundAssign symbol => rfl
  | member => cases plain
  | index => cases plain

def PipelineRole.word : PipelineRole → Token.Keyword
  | uniform => .uniform
  | vertexInput => .input
  | varying => .varying

namespace Expression

mutual

/-- The kinds a tree is spelled with. -/
def spelling (layout : Layout) : Expression → List Token.Kind
  | number value _ => [.number value]
  | truth value _ => [.keyword (if value then .true else .false)]
  | memberName name _ => [.name name]
  | declaration type name _ => [.keyword .var, .typeName (.value type), .name name]
  | pipeline role name _ => [.mark .at, .keyword role.word, .name name]
  | binary operator left right _ =>
    left.spelling layout ++ operator.kind :: right.spelling layout ++ operator.closing
  | unary operator operand _ => operator.kind :: operand.spelling layout
  | parenthesized inner _ =>
    .mark .leftParenthesis :: inner.spelling layout ++ [.mark .rightParenthesis]
  | call name values _ =>
    .name name :: .mark .leftParenthesis :: Spelling.arguments (spellings layout values)
  | result value _ => .keyword .return :: value.spelling layout
  | conditional conditions blocks otherwise _ =>
    Spelling.arms .if (spellings layout conditions) (blockSpellings layout blocks) ++
      otherwiseSpelling layout otherwise
  | loop condition block _ =>
    .keyword .while :: Spelling.arm (condition.spelling layout)
      (Spelling.blockRest layout (spellings layout block))
  | void _ => []

def spellings (layout : Layout) : List Expression → List (List Token.Kind)
  | [] => []
  | tree :: others => tree.spelling layout :: spellings layout others

def blockSpellings (layout : Layout) : List (List Expression) → List (List Token.Kind)
  | [] => []
  | block :: others =>
    Spelling.blockRest layout (spellings layout block) :: blockSpellings layout others

def otherwiseSpelling (layout : Layout) : Option (List Expression) → List Token.Kind
  | none => []
  | some block =>
    .keyword .else :: .mark .leftBrace :: Spelling.blockRest layout (spellings layout block)

end

end Expression

def Program.spelling (layout : Layout) (program : Program) : List Token.Kind :=
  Spelling.sequence layout (Expression.spellings layout program.expressions)

end Shading
