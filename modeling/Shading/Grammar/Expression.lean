import Shading.Grammar.Statement

/-!
Expressions.

An expression is an operand or a statement, then any accesses behind it, then,
unless it is a statement, operators with further operands as long as they bind
tighter than the bound it is read with. Semicolons before it are dropped. A
closing brace shows as the empty expression and is left for the block it closes.
-/

namespace Shading.Grammar

/-! ### Behind an operand -/

/-- Member and index accesses behind an expression, each with what is before it
as its left operand. -/
def accesses (inner : Inner) (start : Location) : Nat → Expression → Reading Expression
  | 0, expression => pure expression
  | limit + 1, expression => do
    match ← Reading.peek with
    | some ⟨.mark .dot, _⟩ => do
      Reading.skip
      let (name, place) ← Reading.expectName
      accesses inner start limit (.binary .member expression (.memberName name place) start)
    | some ⟨.mark .leftBracket, _⟩ => do
      Reading.skip
      let position ← required inner .lowest
      let _ ← Reading.expect (.mark .rightBracket)
      accesses inner start limit (.binary .index expression position start)
    | _ => pure expression

def endsChain : Token.Kind → Bool
  | .mark .comma => true
  | .mark .rightBrace => true
  | .mark .rightParenthesis => true
  | .mark .semicolon => true
  | .mark .rightBracket => true
  | .mark .dot => true
  | _ => false

/-- Operators with their right operands behind `left`, as long as they bind
tighter than the bound. Operators of one precedence group to the left. -/
def chain (inner : Inner) (bound : Precedence) (start : Location) :
    Nat → Expression → Reading Expression
  | 0, left => pure left
  | limit + 1, left => do
    match ← Reading.peek with
    | none => pure left
    | some token =>
      if endsChain token.kind then
        pure left
      else
        match token.kind.operator? with
        | none => Reading.unexpected token
        | some operator =>
          if operator.standsBetween then
            if operator.precedence ≤ bound then
              pure left
            else do
              Reading.skip
              let right ← required inner operator.precedence
              chain inner bound start limit (.binary operator left right start)
          else
            .fail ⟨token.location, .invalidInfixOperator operator⟩

/-! ### Whole expressions -/

def statementThen (inner : Inner) (limit : Nat) (start : Location)
    (statement : Reading Expression) : Reading (Option Expression) := do
  let expression ← statement
  let accessed ← accesses inner start limit expression
  pure (some accessed)

def startingWith (inner : Inner) (limit : Nat) (bound : Precedence) (token : Token) :
    Reading (Option Expression) :=
  match token.kind with
  | .mark .semicolon => do
    Reading.skip
    inner bound
  | .mark .rightBrace => pure (some (.void token.location))
  | .keyword .return =>
    statementThen inner limit token.location (resultForm inner token.location)
  | .keyword .if =>
    statementThen inner limit token.location (conditionalForm inner limit token.location)
  | .keyword .while =>
    statementThen inner limit token.location (loopForm inner limit token.location)
  | _ => do
    let first ← operand inner limit token
    let left ← accesses inner token.location limit first
    let whole ← chain inner bound token.location limit left
    pure (some whole)

/-- The next expression whose operators bind tighter than the bound, or nothing at
the end of the tokens. The limit bounds the nesting and the length of every
repetition; one more than the number of tokens left always suffices. -/
def expression : Nat → Precedence → Reading (Option Expression)
  | 0, _ => pure none
  | limit + 1, bound => do
    match ← Reading.peek with
    | none => pure none
    | some token => startingWith (expression limit) limit bound token

end Shading.Grammar
