import Shading.Proofs.Grammar.Places
import Shading.Proofs.Grammar.Program
import Shading.Proofs.Relocation

/-!
Tokens that stand elsewhere are read as the same tree elsewhere.

Every form decides by the kinds of tokens and puts their places only into trees and
errors. So a form and the same form begun elsewhere are companions.
-/

namespace Shading.Grammar

open Reading

variable {move : Location → Location}

def Movable (move : Location → Location) (inner : Inner) : Prop :=
  ∀ bound, Moved move (Option.map (Expression.relocate move)) (inner bound) (inner bound)

def Arm.relocate (move : Location → Location) (armed : Arm) : Arm :=
  ⟨armed.condition.relocate move, armed.block.map (Expression.relocate move)⟩

variable {inner : Inner} {limit : Nat} {bound : Precedence} {token : Token} {start : Location}

theorem Movable.required (movable : Movable move inner) :
    Moved move (Expression.relocate move) (required inner bound) (required inner bound) := by
  apply (movable bound).bind
  intro answer
  cases answer with
  | none => exact .failAtLast
  | some tree => exact .done

/-! ### What one look decides -/

theorem accessTurn_relocate (answer : Option Token) :
    accessTurn (answer.map (Token.relocate move)) = accessTurn answer := by
  rcases answer with _ | ⟨kind, place⟩
  · rfl
  · cases kind with
    | mark sign => cases sign <;> rfl
    | _ => rfl

theorem armTurn_relocate (answer : Option Token) :
    armTurn (answer.map (Token.relocate move)) = armTurn answer := by
  rcases answer with _ | ⟨kind, place⟩
  · rfl
  · cases kind with
    | keyword word => cases word <;> rfl
    | _ => rfl

def ChainTurn.relocate (move : Location → Location) : ChainTurn → ChainTurn
  | refuse failure => .refuse (failure.relocate move)
  | turn => turn

theorem chainTurn_relocate (answer : Option Token) :
    chainTurn bound (answer.map (Token.relocate move)) =
      (chainTurn bound answer).relocate move := by
  cases answer with
  | none => rfl
  | some token =>
      change chainTurn bound (some ⟨token.kind, move token.location⟩) = _
      unfold chainTurn
      dsimp only
      by_cases ends : endsChain token.kind = true
      · rw [if_pos ends, if_pos ends]
        rfl
      · rw [if_neg ends, if_neg ends]
        cases token.kind.operator? with
        | none => rfl
        | some operator =>
            dsimp only
            by_cases between : operator.standsBetween = true
            · rw [if_pos between, if_pos between]
              by_cases looser : operator.precedence ≤ bound
              · rw [if_pos looser]
                rfl
              · rw [if_neg looser]
                rfl
            · rw [if_neg between, if_neg between]
              rfl

def ArgumentTurn.relocate (move : Location → Location) : ArgumentTurn → ArgumentTurn
  | refuse failure => .refuse (failure.relocate move)
  | turn => turn

theorem argumentTurn_relocate {standing : ArgumentPlace} (answer : Option Token) :
    argumentTurn standing (answer.map (Token.relocate move)) =
      (argumentTurn standing answer).relocate move := by
  rcases answer with _ | ⟨kind, place⟩
  · rfl
  · cases kind with
    | mark sign => cases sign <;> cases standing <;> rfl
    | _ => cases standing <;> rfl

/-! ### Operands -/

theorem Movable.arguments (movable : Movable move inner) {standing : ArgumentPlace} :
    Moved move (List.map (Expression.relocate move)) (arguments inner limit standing)
      (arguments inner limit standing) := by
  induction limit generalizing standing with
  | zero => exact .done
  | succ limit ih =>
      rw [arguments_succ]
      apply Moved.peek
      intro answer
      rw [argumentTurn_relocate]
      cases argumentTurn standing answer with
      | ended => exact .failAtLast
      | close => exact .skip .done
      | comma => exact .skip ih
      | argument =>
          apply movable.required.bind
          intro argument
          apply ih.bind
          intro others
          exact .done
      | refuse failure => exact .fail

theorem Movable.callForm (movable : Movable move inner) {name : String} :
    Moved move (Expression.relocate move) (callForm inner limit name start)
      (callForm inner limit name (move start)) := by
  apply Moved.skip
  apply Moved.peek
  intro answer
  cases answer with
  | none => exact .fail
  | some opening =>
      apply (moved_expect _).bind
      intro _
      apply movable.arguments.bind
      intro values
      rw [← Expression.relocate_call]
      exact .done

theorem Movable.unaryForm (movable : Movable move inner) {operator : Operator} :
    Moved move (Expression.relocate move) (unaryForm inner operator start)
      (unaryForm inner operator (move start)) := by
  apply Moved.skip
  by_cases before : operator.standsBefore = true
  · rw [if_pos before, if_pos before]
    apply movable.required.bind
    intro value
    exact .done
  · rw [if_neg before, if_neg before]
    exact .fail

theorem Movable.parenthesizedForm (movable : Movable move inner) :
    Moved move (Expression.relocate move) (parenthesizedForm inner start)
      (parenthesizedForm inner (move start)) := by
  apply Moved.skip
  apply movable.required.bind
  intro tree
  apply (moved_expect _).bind
  intro _
  exact .done

theorem moved_variableForm :
    Moved move (Expression.relocate move) (variableForm start) (variableForm (move start)) := by
  apply Moved.skip
  apply moved_next.bind
  intro typeToken
  dsimp only [Token.relocate]
  cases variableType? typeToken.kind with
  | none => exact .fail
  | some type =>
      apply moved_expectName.bind
      intro named
      exact .done

theorem moved_pipelineForm :
    Moved move (Expression.relocate move) (pipelineForm start) (pipelineForm (move start)) := by
  apply Moved.skip
  apply moved_next.bind
  intro roleToken
  apply moved_expectName.bind
  intro named
  dsimp only [Token.relocate]
  cases pipelineRole? roleToken.kind with
  | none => exact moved_unexpected roleToken
  | some role => exact .done

theorem moved_singleForm {tree : Expression} :
    Moved move (Expression.relocate move) (singleForm tree) (singleForm (tree.relocate move)) :=
  .skip .done

theorem Movable.operand (movable : Movable move inner) :
    Moved move (Expression.relocate move) (operand inner limit token)
      (operand inner limit (token.relocate move)) := by
  rw [operand_eq, operand_eq]
  have kept : (token.relocate move).kind = token.kind := rfl
  rw [kept]
  cases operandTurn token.kind with
  | call name => exact movable.callForm
  | declaration => exact moved_variableForm
  | pipeline => exact moved_pipelineForm
  | parenthesized => exact movable.parenthesizedForm
  | number value => exact moved_singleForm
  | truth value => exact moved_singleForm
  | unary operator => exact movable.unaryForm
  | refuse => exact moved_unexpected token

/-! ### Statements -/

theorem Movable.blockRest (movable : Movable move inner) :
    Moved move (List.map (Expression.relocate move)) (blockRest inner limit)
      (blockRest inner limit) := by
  induction limit with
  | zero => exact .done
  | succ limit ih =>
      rw [Grammar.blockRest]
      apply Moved.peek
      intro answer
      cases answer with
      | none => exact .failAtLast
      | some token =>
          apply movable.required.bind
          intro tree
          rw [Expression.isVoid_relocate]
          by_cases empty : tree.isVoid = true
          · rw [if_pos empty, if_pos empty]
            exact .skip .done
          · rw [if_neg empty, if_neg empty]
            apply ih.bind
            intro others
            exact .done

theorem Movable.block (movable : Movable move inner) :
    Moved move (List.map (Expression.relocate move)) (block inner limit) (block inner limit) := by
  apply (moved_expect _).bind
  intro _
  exact movable.blockRest

theorem Movable.condition (movable : Movable move inner) :
    Moved move (Expression.relocate move) (condition inner) (condition inner) := by
  apply (moved_expect _).bind
  intro _
  apply movable.required.bind
  intro test
  apply (moved_expect _).bind
  intro _
  exact .done

theorem Movable.arm (movable : Movable move inner) :
    Moved move (Arm.relocate move) (arm inner limit) (arm inner limit) := by
  apply movable.condition.bind
  intro test
  apply movable.block.bind
  intro body
  exact .done

theorem Movable.furtherArms (movable : Movable move inner) {blockLimit : Nat} :
    Moved move
      (fun arms => (arms.1.map (Arm.relocate move),
        arms.2.map (List.map (Expression.relocate move))))
      (furtherArms inner blockLimit limit) (furtherArms inner blockLimit limit) := by
  induction limit with
  | zero => exact .done
  | succ limit ih =>
      rw [furtherArms_succ]
      apply Moved.peek
      intro answer
      rw [armTurn_relocate]
      cases armTurn answer with
      | further =>
          apply Moved.skip
          apply movable.arm.bind
          intro next
          apply ih.bind
          intro others
          exact .done
      | last =>
          apply Moved.skip
          apply movable.block.bind
          intro otherwise
          exact .done
      | stop => exact .done

theorem conditions_relocate (arms : List Arm) :
    (arms.map (Arm.relocate move)).map Arm.condition =
      (arms.map Arm.condition).map (Expression.relocate move) := by
  rw [List.map_map, List.map_map]
  rfl

theorem blocks_relocate (arms : List Arm) :
    (arms.map (Arm.relocate move)).map Arm.block =
      (arms.map Arm.block).map (List.map (Expression.relocate move)) := by
  rw [List.map_map, List.map_map]
  rfl

theorem Movable.resultForm (movable : Movable move inner) :
    Moved move (Expression.relocate move) (resultForm inner start)
      (resultForm inner (move start)) := by
  apply Moved.skip
  apply movable.required.bind
  intro value
  exact .done

theorem Movable.conditionalForm (movable : Movable move inner) :
    Moved move (Expression.relocate move) (conditionalForm inner limit start)
      (conditionalForm inner limit (move start)) := by
  apply Moved.skip
  apply movable.arm.bind
  intro first
  apply movable.furtherArms.bind
  intro arms
  obtain ⟨others, otherwise⟩ := arms
  change Moved move _ (pure _) (pure (Expression.conditional
    (((first :: others).map (Arm.relocate move)).map Arm.condition)
    (((first :: others).map (Arm.relocate move)).map Arm.block)
    (otherwise.map (List.map (Expression.relocate move))) (move start)))
  rw [conditions_relocate, blocks_relocate, ← Expression.relocate_conditional]
  exact .done

theorem Movable.loopForm (movable : Movable move inner) :
    Moved move (Expression.relocate move) (loopForm inner limit start)
      (loopForm inner limit (move start)) := by
  apply Moved.skip
  apply movable.arm.bind
  intro repeated
  change Moved move _ (pure _) (pure (Expression.loop (repeated.condition.relocate move)
    (repeated.block.map (Expression.relocate move)) (move start)))
  rw [← Expression.relocate_loop]
  exact .done

/-! ### Behind an operand -/

theorem Movable.accesses (movable : Movable move inner) {left : Expression} :
    Moved move (Expression.relocate move) (accesses inner start limit left)
      (accesses inner (move start) limit (left.relocate move)) := by
  induction limit generalizing left with
  | zero => exact .done
  | succ limit ih =>
      rw [accesses_succ, accesses_succ]
      apply Moved.peek
      intro answer
      rw [accessTurn_relocate]
      cases accessTurn answer with
      | member =>
          apply Moved.skip
          apply moved_expectName.bind
          intro named
          exact ih
      | index =>
          apply Moved.skip
          apply movable.required.bind
          intro position
          apply (moved_expect _).bind
          intro _
          exact ih
      | stop => exact .done

theorem Movable.chain (movable : Movable move inner) {left : Expression} :
    Moved move (Expression.relocate move) (chain inner bound start limit left)
      (chain inner bound (move start) limit (left.relocate move)) := by
  induction limit generalizing left with
  | zero => exact .done
  | succ limit ih =>
      rw [chain_succ, chain_succ]
      apply Moved.peek
      intro answer
      rw [chainTurn_relocate]
      cases chainTurn bound answer with
      | stop => exact .done
      | extend operator =>
          apply Moved.skip
          apply movable.required.bind
          intro right
          exact ih
      | refuse failure => exact .fail

/-! ### Whole expressions -/

theorem Movable.statementThen (movable : Movable move inner)
    {statement companion : Reading Expression}
    (moved : Moved move (Expression.relocate move) statement companion) :
    Moved move (Option.map (Expression.relocate move)) (statementThen inner limit start statement)
      (statementThen inner limit (move start) companion) := by
  apply moved.bind
  intro first
  apply movable.accesses.bind
  intro tree
  exact .done

theorem Movable.startingWith (movable : Movable move inner) :
    Moved move (Option.map (Expression.relocate move)) (startingWith inner limit bound token)
      (startingWith inner limit bound (token.relocate move)) := by
  rw [startingWith_eq, startingWith_eq]
  have kept : (token.relocate move).kind = token.kind := rfl
  rw [kept]
  cases startTurn token.kind with
  | separator => exact .skip (movable bound)
  | brace => exact .done
  | result => exact movable.statementThen movable.resultForm
  | conditional => exact movable.statementThen movable.conditionalForm
  | loop => exact movable.statementThen movable.loopForm
  | operand =>
      apply movable.operand.bind
      intro first
      apply movable.accesses.bind
      intro left
      apply movable.chain.bind
      intro tree
      exact .done

theorem expression_movable (limit : Nat) : Movable move (expression limit) := by
  induction limit with
  | zero =>
      intro bound
      exact .done
  | succ limit ih =>
      intro bound
      apply Moved.peek
      intro answer
      cases answer with
      | none => exact .done
      | some token => exact ih.startingWith

def ProgramTurn.relocate (move : Location → Location) : ProgramTurn → ProgramTurn
  | finish => .finish
  | stray place => .stray (move place)
  | element tree => .element (tree.relocate move)

theorem programTurn_relocate (answer : Option Expression) :
    programTurn (answer.map (Expression.relocate move)) = (programTurn answer).relocate move := by
  rcases answer with _ | tree
  · rfl
  · cases tree <;> rfl

theorem programForm_moved {count : Nat} :
    Moved move (List.map (Expression.relocate move)) (programForm limit count)
      (programForm limit count) := by
  induction count with
  | zero => exact .done
  | succ count ih =>
      apply (expression_movable limit .lowest).bind
      intro answer
      rw [programTurn_relocate]
      cases programTurn answer with
      | finish => exact .done
      | stray place => exact .fail
      | element tree =>
          apply ih.bind
          intro others
          exact .done

end Shading.Grammar
