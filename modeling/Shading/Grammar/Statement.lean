import Shading.Grammar.Operand

/-!
Statements: results, conditionals, loops, and the blocks in them.
-/

namespace Shading.Grammar

/-- A result: the keyword at `start` and a value. Before a closing brace the value
is the empty expression. -/
def resultForm (inner : Inner) (start : Location) : Reading Expression := do
  Reading.skip
  let value ← required inner .lowest
  pure (.result value start)

def condition (inner : Inner) : Reading Expression := do
  let _ ← Reading.expect (.mark .leftParenthesis)
  let expression ← required inner .lowest
  let _ ← Reading.expect (.mark .rightParenthesis)
  pure expression

/-- The expressions of a block up to its closing brace, which shows as the empty
expression and is taken here. -/
def blockRest (inner : Inner) : Nat → Reading (List Expression)
  | 0 => pure []
  | limit + 1 => do
    match ← Reading.peek with
    | none => Reading.failAtLast .unexpectedEnd
    | some _ =>
      let expression ← required inner .lowest
      if expression.isVoid then
        Reading.skip
        pure []
      else
        let others ← blockRest inner limit
        pure (expression :: others)

def block (inner : Inner) (limit : Nat) : Reading (List Expression) := do
  let _ ← Reading.expect (.mark .leftBrace)
  blockRest inner limit

structure Arm where
  condition : Expression
  block : List Expression

def arm (inner : Inner) (limit : Nat) : Reading Arm := do
  let test ← condition inner
  let body ← block inner limit
  pure ⟨test, body⟩

def furtherArms (inner : Inner) (blockLimit : Nat) :
    Nat → Reading (List Arm × Option (List Expression))
  | 0 => pure ([], none)
  | limit + 1 => do
    match ← Reading.peek with
    | some ⟨.keyword .elif, _⟩ => do
      Reading.skip
      let next ← arm inner blockLimit
      let (others, otherwise) ← furtherArms inner blockLimit limit
      pure (next :: others, otherwise)
    | some ⟨.keyword .else, _⟩ => do
      Reading.skip
      let otherwise ← block inner blockLimit
      pure ([], some otherwise)
    | _ => pure ([], none)

def conditionalForm (inner : Inner) (limit : Nat) (start : Location) : Reading Expression := do
  Reading.skip
  let first ← arm inner limit
  let (others, otherwise) ← furtherArms inner limit limit
  let arms := first :: others
  pure (.conditional (arms.map Arm.condition) (arms.map Arm.block) otherwise start)

def loopForm (inner : Inner) (limit : Nat) (start : Location) : Reading Expression := do
  Reading.skip
  let repeated ← arm inner limit
  pure (.loop repeated.condition repeated.block start)

end Shading.Grammar
