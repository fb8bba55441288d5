import Shading.Location
import Shading.Number
import Shading.Operator

/-!
Tokens.

A token is a kind and the place of its first character. Kinds are grouped by
what the grammar makes of them: numbers, names, keywords, type names, operators
and punctuation marks.
-/

namespace Shading

inductive ValueType where
  | int
  | matrix4x4
  | float
  | float2
  | float3
  | float4
deriving DecidableEq, Repr, Inhabited

def ValueType.word : ValueType → String
  | int => "int"
  | matrix4x4 => "mat4x4"
  | float => "float"
  | float2 => "float2"
  | float3 => "float3"
  | float4 => "float4"

namespace Token

inductive Keyword where
  | true
  | false
  | return
  | if
  | elif
  | else
  | while
  | function
  | var
  | input
  | uniform
  | varying
  | position
  | color
deriving DecidableEq, Repr, Inhabited

def Keyword.word : Keyword → String
  | .true => "true"
  | .false => "false"
  | .return => "ret"
  | .if => "if"
  | .elif => "elif"
  | .else => "else"
  | .while => "while"
  | .function => "function"
  | .var => "var"
  | .input => "input"
  | .uniform => "uniform"
  | .varying => "varying"
  | .position => "vx_Position"
  | .color => "vx_Color"

def Keyword.all : List Keyword :=
  [.true, .false, .return, .if, .elif, .else, .while, .function, .var, .input, .uniform,
   .varying, .position, .color]

/-- Reserved words that name a type: those of variables, and the empty type. -/
inductive TypeName where
  | void
  | value (type : ValueType)
deriving DecidableEq, Repr, Inhabited

def TypeName.word : TypeName → String
  | void => "void"
  | value type => type.word

def TypeName.all : List TypeName :=
  [.value .int, .void, .value .matrix4x4, .value .float, .value .float2, .value .float3,
   .value .float4]

inductive Punctuation where
  | colon
  | comma
  | hash
  | leftBracket
  | rightBracket
  | leftParenthesis
  | rightParenthesis
  | leftBrace
  | rightBrace
  | semicolon
  | dot
  | at
deriving DecidableEq, Repr, Inhabited

def Punctuation.symbol : Punctuation → Char
  | colon => ':'
  | comma => ','
  | hash => '#'
  | leftBracket => '['
  | rightBracket => ']'
  | leftParenthesis => '('
  | rightParenthesis => ')'
  | leftBrace => '{'
  | rightBrace => '}'
  | semicolon => ';'
  | dot => '.'
  | .at => '@'

def Punctuation.ofChar? : Char → Option Punctuation
  | ':' => some colon
  | ',' => some comma
  | '#' => some hash
  | '[' => some leftBracket
  | ']' => some rightBracket
  | '(' => some leftParenthesis
  | ')' => some rightParenthesis
  | '{' => some leftBrace
  | '}' => some rightBrace
  | ';' => some semicolon
  | '.' => some dot
  | '@' => some .at
  | _ => none

theorem Punctuation.ofChar?_symbol (mark : Punctuation) :
    Punctuation.ofChar? mark.symbol = some mark := by
  cases mark <;> rfl

inductive Kind where
  | number (value : Float)
  | name (text : String)
  | keyword (word : Keyword)
  | typeName (type : TypeName)
  | arithmetic (operator : ArithmeticOperator)
  | boolean (operator : BooleanOperator)
  | assign
  | compoundAssign (operator : ArithmeticOperator)
  | mark (sign : Punctuation)
deriving DecidableEq

namespace Kind

def operator? : Kind → Option Operator
  | arithmetic operator => some (.arithmetic operator)
  | boolean operator => some (.boolean operator)
  | assign => some .assign
  | compoundAssign operator => some (.compoundAssign operator)
  | _ => none

def isOperator (kind : Kind) : Bool := kind.operator?.isSome

def isTypeName : Kind → Bool
  | typeName _ => true
  | _ => false

def isReserved : Kind → Bool
  | keyword _ => true
  | kind => kind.isTypeName

def text : Kind → String
  | number value => "number " ++ Number.text value
  | name text => "identifier '" ++ text ++ "'"
  | keyword word => "'" ++ word.word ++ "'"
  | typeName type => "'" ++ type.word ++ "'"
  | arithmetic operator => "'" ++ String.singleton operator.symbol ++ "'"
  | boolean operator => "'" ++ operator.symbol ++ "'"
  | assign => "'='"
  | compoundAssign operator => "'" ++ String.singleton operator.symbol ++ "='"
  | mark sign => "'" ++ String.singleton sign.symbol ++ "'"

/-- Equality with numbers compared as numbers: a value that is not a number
differs from itself, and the two zeros are equal. -/
def agrees : Kind → Kind → Bool
  | number left, number right => left == right
  | left, right => left = right

end Kind

end Token

structure Token where
  kind : Token.Kind
  location : Location
deriving DecidableEq

def Token.text (token : Token) : String := token.location.shown ++ " " ++ token.kind.text

def Token.agrees (left right : Token) : Bool :=
  left.kind.agrees right.kind && left.location = right.location

end Shading
