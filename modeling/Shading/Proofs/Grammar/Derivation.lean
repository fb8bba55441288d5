import Shading.Grammar.Expression

/-!
The grammar without a limit.

Each relation holds of a list of items, of a tree that stands at its head, and
of the rest behind that tree. The rules say what the forms of the grammar read,
and what they must see next to stop; they bound no nesting and no repetition.
Trees are stamped with places as the forms stamp them.
-/

namespace Shading.Grammar

/-- Nothing follows, or a token whose kind passes a test. -/
def Ahead (test : Token.Kind → Prop) : List TokenItem → Prop
  | [] => True
  | .ok token :: _ => test token.kind
  | .error _ :: _ => False

def beginsAccess (kind : Token.Kind) : Prop :=
  kind = .mark .dot ∨ kind = .mark .leftBracket

/-- The kinds that a chain of operators stops at under a bound: closing marks, and
operators that do not bind tighter. -/
def stopsChain (bound : Precedence) (kind : Token.Kind) : Prop :=
  endsChain kind = true ∨
    ∃ operator, kind.operator? = some operator ∧ operator.standsBetween = true ∧
      operator.precedence ≤ bound

def continuesConditional (kind : Token.Kind) : Prop :=
  kind = .keyword .elif ∨ kind = .keyword .else

mutual

/-- An expression read with a bound. -/
inductive ReadsExpression : Precedence → List TokenItem → Expression → List TokenItem → Prop where
  | separator {bound : Precedence} {place : Location} {input rest : List TokenItem}
      {tree : Expression} (following : ReadsExpression bound input tree rest) :
      ReadsExpression bound (.ok ⟨.mark .semicolon, place⟩ :: input) tree rest
  | brace {bound : Precedence} {place : Location} {input : List TokenItem} :
      ReadsExpression bound (.ok ⟨.mark .rightBrace, place⟩ :: input) (.void place)
        (.ok ⟨.mark .rightBrace, place⟩ :: input)
  | statement {bound : Precedence} {token : Token} {input middle rest : List TokenItem}
      {first tree : Expression} (form : ReadsStatement token input first middle)
      (accessed : ReadsAccesses token.location first middle tree rest) :
      ReadsExpression bound (.ok token :: input) tree rest
  | operand {bound : Precedence} {token : Token} {input behind middle rest : List TokenItem}
      {first left tree : Expression} (form : ReadsOperand token input first behind)
      (accessed : ReadsAccesses token.location first behind left middle)
      (chained : ReadsChain bound token.location left middle tree rest) :
      ReadsExpression bound (.ok token :: input) tree rest

inductive ReadsOperand : Token → List TokenItem → Expression → List TokenItem → Prop where
  | number {value : Float} {place : Location} {input : List TokenItem} :
      ReadsOperand ⟨.number value, place⟩ input (.number value place) input
  | truth {place : Location} {input : List TokenItem} :
      ReadsOperand ⟨.keyword .true, place⟩ input (.truth true place) input
  | falsehood {place : Location} {input : List TokenItem} :
      ReadsOperand ⟨.keyword .false, place⟩ input (.truth false place) input
  | declaration {type : ValueType} {name : String} {place typePlace namePlace : Location}
      {input : List TokenItem} :
      ReadsOperand ⟨.keyword .var, place⟩
        (.ok ⟨.typeName (.value type), typePlace⟩ :: .ok ⟨.name name, namePlace⟩ :: input)
        (.declaration type name place) input
  | pipeline {kind : Token.Kind} {role : PipelineRole} {name : String}
      {place rolePlace namePlace : Location} {input : List TokenItem}
      (named : pipelineRole? kind = some role) :
      ReadsOperand ⟨.mark .at, place⟩
        (.ok ⟨kind, rolePlace⟩ :: .ok ⟨.name name, namePlace⟩ :: input)
        (.pipeline role name place) input
  | call {name : String} {place openPlace : Location} {input rest : List TokenItem}
      {values : List Expression} (listed : ReadsArguments .atFirst input values rest) :
      ReadsOperand ⟨.name name, place⟩ (.ok ⟨.mark .leftParenthesis, openPlace⟩ :: input)
        (.call name values place) rest
  | unary {kind : Token.Kind} {operator : Operator} {place : Location}
      {input rest : List TokenItem} {value : Expression}
      (stands : kind.operator? = some operator) (before : operator.standsBefore = true)
      (following : ReadsExpression operator.operandPrecedence input value rest) :
      ReadsOperand ⟨kind, place⟩ input (.unary operator value place) rest
  | parenthesized {place closePlace : Location} {input rest : List TokenItem}
      {inner : Expression}
      (following : ReadsExpression .lowest input inner
        (.ok ⟨.mark .rightParenthesis, closePlace⟩ :: rest)) :
      ReadsOperand ⟨.mark .leftParenthesis, place⟩ input (.parenthesized inner place) rest

inductive ReadsAccesses :
    Location → Expression → List TokenItem → Expression → List TokenItem → Prop where
  | stop {start : Location} {left : Expression} {input : List TokenItem}
      (ahead : Ahead (fun kind => ¬ beginsAccess kind) input) :
      ReadsAccesses start left input left input
  | member {start place namePlace : Location} {name : String} {left tree : Expression}
      {input rest : List TokenItem}
      (others : ReadsAccesses start (.binary .member left (.memberName name namePlace) start)
        input tree rest) :
      ReadsAccesses start left
        (.ok ⟨.mark .dot, place⟩ :: .ok ⟨.name name, namePlace⟩ :: input) tree rest
  | index {start place closePlace : Location} {left position tree : Expression}
      {input middle rest : List TokenItem}
      (following : ReadsExpression .lowest input position
        (.ok ⟨.mark .rightBracket, closePlace⟩ :: middle))
      (others : ReadsAccesses start (.binary .index left position start) middle tree rest) :
      ReadsAccesses start left (.ok ⟨.mark .leftBracket, place⟩ :: input) tree rest

inductive ReadsChain :
    Precedence → Location → Expression → List TokenItem → Expression → List TokenItem → Prop where
  | stop {bound : Precedence} {start : Location} {left : Expression} {input : List TokenItem}
      (ahead : Ahead (stopsChain bound) input) :
      ReadsChain bound start left input left input
  | extend {bound : Precedence} {start place : Location} {kind : Token.Kind}
      {operator : Operator} {left right tree : Expression} {input middle rest : List TokenItem}
      (stands : kind.operator? = some operator) (between : operator.standsBetween = true)
      (tighter : bound < operator.precedence)
      (following : ReadsExpression operator.precedence input right middle)
      (others : ReadsChain bound start (.binary operator left right start) middle tree rest) :
      ReadsChain bound start left (.ok ⟨kind, place⟩ :: input) tree rest

inductive ReadsArguments :
    ArgumentPlace → List TokenItem → List Expression → List TokenItem → Prop where
  | close {standing : ArgumentPlace} {place : Location} {input : List TokenItem}
      (complete : standing ≠ .afterComma) :
      ReadsArguments standing (.ok ⟨.mark .rightParenthesis, place⟩ :: input) [] input
  | comma {place : Location} {input rest : List TokenItem} {values : List Expression}
      (others : ReadsArguments .afterComma input values rest) :
      ReadsArguments .afterArgument (.ok ⟨.mark .comma, place⟩ :: input) values rest
  | argument {standing : ArgumentPlace} {token : Token} {input middle rest : List TokenItem}
      {value : Expression} {values : List Expression}
      (expected : standing ≠ .afterArgument)
      (begins : token.kind ≠ .mark .rightParenthesis ∧ token.kind ≠ .mark .comma)
      (following : ReadsExpression .lowest (.ok token :: input) value middle)
      (others : ReadsArguments .afterArgument middle values rest) :
      ReadsArguments standing (.ok token :: input) (value :: values) rest

inductive ReadsStatement : Token → List TokenItem → Expression → List TokenItem → Prop where
  | result {place : Location} {input rest : List TokenItem} {value : Expression}
      (following : ReadsExpression .lowest input value rest) :
      ReadsStatement ⟨.keyword .return, place⟩ input (.result value place) rest
  | conditional {place : Location} {input middle rest : List TokenItem} {first : Arm}
      {others : List Arm} {otherwise : Option (List Expression)}
      (begun : ReadsArm input first middle)
      (continued : ReadsFurtherArms middle others otherwise rest) :
      ReadsStatement ⟨.keyword .if, place⟩ input
        (.conditional (first.condition :: others.map Arm.condition)
          (first.block :: others.map Arm.block) otherwise place) rest
  | loop {place : Location} {input rest : List TokenItem} {repeated : Arm}
      (armed : ReadsArm input repeated rest) :
      ReadsStatement ⟨.keyword .while, place⟩ input
        (.loop repeated.condition repeated.block place) rest

inductive ReadsArm : List TokenItem → Arm → List TokenItem → Prop where
  | arm {openPlace closePlace bracePlace : Location} {input middle rest : List TokenItem}
      {test : Expression} {body : List Expression}
      (following : ReadsExpression .lowest input test
        (.ok ⟨.mark .rightParenthesis, closePlace⟩ ::
          .ok ⟨.mark .leftBrace, bracePlace⟩ :: middle))
      (blocked : ReadsBlock middle body rest) :
      ReadsArm (.ok ⟨.mark .leftParenthesis, openPlace⟩ :: input) ⟨test, body⟩ rest

inductive ReadsFurtherArms :
    List TokenItem → List Arm → Option (List Expression) → List TokenItem → Prop where
  | stop {input : List TokenItem} (ahead : Ahead (fun kind => ¬ continuesConditional kind) input) :
      ReadsFurtherArms input [] none input
  | further {place : Location} {input middle rest : List TokenItem} {next : Arm} {others : List Arm}
      {otherwise : Option (List Expression)}
      (armed : ReadsArm input next middle)
      (continued : ReadsFurtherArms middle others otherwise rest) :
      ReadsFurtherArms (.ok ⟨.keyword .elif, place⟩ :: input) (next :: others) otherwise rest
  | last {place bracePlace : Location} {input rest : List TokenItem} {body : List Expression}
      (blocked : ReadsBlock input body rest) :
      ReadsFurtherArms
        (.ok ⟨.keyword .else, place⟩ :: .ok ⟨.mark .leftBrace, bracePlace⟩ :: input)
        [] (some body) rest

inductive ReadsBlock : List TokenItem → List Expression → List TokenItem → Prop where
  | close {place bracePlace : Location} {input rest : List TokenItem}
      (following : ReadsExpression .lowest input (.void place)
        (.ok ⟨.mark .rightBrace, bracePlace⟩ :: rest)) :
      ReadsBlock input [] rest
  | element {input middle rest : List TokenItem} {tree : Expression} {others : List Expression}
      (following : ReadsExpression .lowest input tree middle) (solid : tree.isVoid = false)
      (blocked : ReadsBlock middle others rest) :
      ReadsBlock input (tree :: others) rest

end

/-- Accesses are read one at a time: what holds where none is ahead, and in front of
an access whenever it holds behind it, holds of all accesses. -/
@[induction_eliminator]
theorem ReadsAccesses.stepwise {start : Location}
    {motive : (left : Expression) → (input : List TokenItem) → (tree : Expression) →
      (rest : List TokenItem) → ReadsAccesses start left input tree rest → Prop}
    (stop : ∀ {left : Expression} {input : List TokenItem}
      (ahead : Ahead (fun kind => ¬ beginsAccess kind) input),
      motive left input left input (.stop ahead))
    (member : ∀ {place namePlace : Location} {name : String} {left tree : Expression}
      {input rest : List TokenItem}
      (others : ReadsAccesses start (.binary .member left (.memberName name namePlace) start)
        input tree rest),
      motive _ input tree rest others →
        motive left (.ok ⟨.mark .dot, place⟩ :: .ok ⟨.name name, namePlace⟩ :: input) tree rest
          (.member others))
    (index : ∀ {place closePlace : Location} {left position tree : Expression}
      {input middle rest : List TokenItem}
      (following : ReadsExpression .lowest input position
        (.ok ⟨.mark .rightBracket, closePlace⟩ :: middle))
      (others : ReadsAccesses start (.binary .index left position start) middle tree rest),
      motive _ middle tree rest others →
        motive left (.ok ⟨.mark .leftBracket, place⟩ :: input) tree rest
          (.index following others))
    {left : Expression} {input : List TokenItem} {tree : Expression} {rest : List TokenItem}
    (derived : ReadsAccesses start left input tree rest) : motive left input tree rest derived := by
  match derived with
  | .stop ahead => exact stop ahead
  | .member others => exact member others (others.stepwise stop member index)
  | .index following others =>
      exact index following others (others.stepwise stop member index)

def OnlySeparators (input : List TokenItem) : Prop :=
  ∀ item ∈ input, ∃ place, item = .ok ⟨.mark .semicolon, place⟩

inductive ReadsProgram : List TokenItem → List Expression → Prop where
  | finish {input : List TokenItem} (separators : OnlySeparators input) : ReadsProgram input []
  | expression {input middle : List TokenItem} {tree : Expression} {others : List Expression}
      (following : ReadsExpression .lowest input tree middle) (solid : tree.isVoid = false)
      (continued : ReadsProgram middle others) : ReadsProgram input (tree :: others)

end Shading.Grammar
