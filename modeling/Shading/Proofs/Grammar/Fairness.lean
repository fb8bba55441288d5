import Shading.Proofs.Blame
import Shading.Proofs.Grammar.Program

/-!
Every form of the grammar is fair.

If inner expressions are read fairly wherever fewer than `size` items are left, so
is every form that is begun with no more than that. A form begins at a token that
was seen ahead, or behind one that was taken, and this token is the one to stand in
for the end of the text.
-/

namespace Shading.Grammar

open Reading

/-- Where an expression leaves the tokens: at their end if there is none, and at the
brace that shows as the empty one. -/
def Leaves : Option Expression → Trail → Prop
  | none, trail => trail.ahead = some none
  | some (.void place), trail => trail.ahead = some (some (.ok ⟨.mark .rightBrace, place⟩))
  | some _, _ => True

theorem Leaves.solid {tree : Expression} (solid : tree.isVoid = false) (trail : Trail) :
    Leaves (some tree) trail := by
  cases tree with
  | void place => cases solid
  | _ => trivial

def FairBelow (size : Nat) (inner : Inner) : Prop :=
  ∀ {bound : Precedence} {room : Nat} {trail : Trail}, room < size →
    (inner bound).Fair room trail Leaves

def Solid (tree : Expression) (_ : Trail) : Prop := tree.isVoid = false

def Anything {α : Type} (_ : α) (_ : Trail) : Prop := True

variable {inner : Inner} {size limit room : Nat} {trail : Trail} {bound : Precedence}
  {start : Location} {token : Token}

theorem FairBelow.required (fair : FairBelow size inner) (begun : trail.Begun)
    (fewer : room < size) : (required inner bound).Fair room trail Anything := by
  apply (fair fewer).bind
  intro answer left after leaves _ still
  cases answer with
  | none => exact .ended_of (still begun) leaves rfl
  | some tree => trivial

/-! ### Operands -/

theorem FairBelow.arguments (fair : FairBelow size inner) (begun : trail.Begun)
    (fewer : room < size) {standing : ArgumentPlace} :
    (arguments inner limit standing).Fair room trail Anything := by
  induction limit generalizing room trail standing with
  | zero => trivial
  | succ limit ih =>
      rw [arguments_succ]
      apply Fair.peek
      intro answer _
      cases answer with
      | none => exact Halt.Justified.ended_of begun rfl rfl
      | some token =>
          cases turn : argumentTurn standing (some token) with
          | ended => cases argumentTurn_ended turn
          | close =>
              apply Fair.skip
              intros
              trivial
          | comma =>
              apply Fair.skip
              intro left enough
              exact ih (trail.begun_take token) (by omega)
          | argument =>
              have seen := begun.look (some (.ok token))
              apply (fair.required seen fewer).bind
              intro value left after _ less still
              apply (ih (still seen) (by omega)).bind
              intros
              trivial
          | refuse failure =>
              obtain ⟨_, same, rfl⟩ := argumentTurn_refuse turn
              cases same
              exact Halt.Justified.ahead (names_unexpected token)

theorem FairBelow.callForm (fair : FairBelow size inner) {name : String} (within : room ≤ size) :
    (callForm inner limit name token.location).Fair room (trail.look (some (.ok token)))
      Solid := by
  apply Fair.skip
  intro left enough
  apply Fair.peek
  intro answer _
  cases answer with
  | none => exact Halt.Justified.parameters
  | some opening =>
      have begun := (trail.begun_take token).look (some (.ok opening))
      apply (fair_expect begun).bind
      intro _ fewer after _ less still
      apply (fair.arguments (still begun) (by omega)).bind
      intros
      rfl

theorem FairBelow.unaryForm (fair : FairBelow size inner) {operator : Operator}
    (stands : token.kind.operator? = some operator) (within : room ≤ size) :
    (unaryForm inner operator token.location).Fair room (trail.look (some (.ok token)))
      Solid := by
  apply Fair.skip
  intro left enough
  split
  · apply (fair.required (trail.begun_take token) (by omega)).bind
    intros
    rfl
  · exact Halt.Justified.taken ⟨rfl, stands⟩

theorem FairBelow.parenthesizedForm (fair : FairBelow size inner) (within : room ≤ size) :
    (parenthesizedForm inner start).Fair room (trail.look (some (.ok token))) Solid := by
  apply Fair.skip
  intro left enough
  have begun := trail.begun_take token
  apply (fair.required begun (by omega)).bind
  intro _ fewer after _ less still
  apply (fair_expect (still begun)).bind
  intros
  rfl

theorem fair_variableForm :
    (variableForm start).Fair room (trail.look (some (.ok token))) Solid := by
  apply Fair.skip
  intro left _
  apply (fair_next (trail.begun_take token)).bind
  intro typeToken fewer after same _ _
  subst same
  cases variableType? typeToken.kind with
  | none => exact Halt.Justified.taken ⟨rfl, rfl⟩
  | some type =>
      apply (fair_expectName (Trail.begun_take _ typeToken)).bind
      intros
      rfl

theorem fair_pipelineForm (sign : token.kind = .mark .at) :
    (pipelineForm start).Fair room (trail.look (some (.ok token))) Solid := by
  obtain ⟨kind, place⟩ := token
  cases sign
  apply Fair.skip
  intro left _
  apply (fair_next (trail.begun_take _)).bind
  intro roleToken fewer after same _ _
  subst same
  apply (fair_expectName (Trail.begun_take _ roleToken)).bind
  intro answer fewest named same _ _
  subst same
  cases named : pipelineRole? roleToken.kind with
  | none => exact Halt.Justified.role named
  | some role => rfl

theorem fair_singleForm {tree : Expression} (solid : tree.isVoid = false) :
    (singleForm tree).Fair room (trail.look (some (.ok token))) Solid := by
  apply Fair.skip
  intros
  exact solid

theorem FairBelow.operand (fair : FairBelow size inner) (within : room ≤ size) :
    (operand inner limit token).Fair room (trail.look (some (.ok token))) Solid := by
  rw [operand_eq]
  cases turn : operandTurn token.kind with
  | call name => exact fair.callForm within
  | declaration => exact fair_variableForm
  | pipeline => exact fair_pipelineForm (operandTurn_kind? (congrArg OperandTurn.kind? turn))
  | parenthesized => exact fair.parenthesizedForm within
  | number value => exact fair_singleForm rfl
  | truth value => exact fair_singleForm rfl
  | unary operator => exact fair.unaryForm (operandTurn_unary turn) within
  | refuse => exact Halt.Justified.ahead (names_unexpected token)

/-! ### Statements -/

theorem FairBelow.blockRest (fair : FairBelow size inner) (begun : trail.Begun)
    (fewer : room < size) : (blockRest inner limit).Fair room trail Anything := by
  induction limit generalizing room trail with
  | zero => trivial
  | succ limit ih =>
      rw [Grammar.blockRest]
      apply Fair.peek
      intro answer _
      cases answer with
      | none => exact Halt.Justified.ended_of begun rfl rfl
      | some token =>
          have seen := begun.look (some (.ok token))
          apply (fair.required seen fewer).bind
          intro tree left after leaves less still
          split
          · apply (fair_skip (still seen)).bind
            intros
            trivial
          · apply (ih (still seen) (by omega)).bind
            intros
            trivial

theorem FairBelow.block (fair : FairBelow size inner) (begun : trail.Begun)
    (fewer : room < size) : (block inner limit).Fair room trail Anything := by
  apply (fair_expect begun).bind
  intro _ left after _ less still
  exact fair.blockRest (still begun) (by omega)

theorem FairBelow.condition (fair : FairBelow size inner) (begun : trail.Begun)
    (fewer : room < size) : (condition inner).Fair room trail Anything := by
  apply (fair_expect begun).bind
  intro _ left opened _ less still
  apply (fair.required (still begun) (by omega)).bind
  intro test fewerLeft tested _ _ stillBegun
  apply (fair_expect (stillBegun (still begun))).bind
  intros
  trivial

theorem FairBelow.arm (fair : FairBelow size inner) (begun : trail.Begun)
    (fewer : room < size) : (arm inner limit).Fair room trail Anything := by
  apply (fair.condition begun fewer).bind
  intro _ left tested _ less still
  apply (fair.block (still begun) (by omega)).bind
  intros
  trivial

theorem FairBelow.furtherArms (fair : FairBelow size inner) (begun : trail.Begun)
    (fewer : room < size) {blockLimit : Nat} :
    (furtherArms inner blockLimit limit).Fair room trail Anything := by
  induction limit generalizing room trail with
  | zero => trivial
  | succ limit ih =>
      rw [furtherArms_succ]
      apply Fair.peek
      intro answer _
      cases answer with
      | none => trivial
      | some token =>
          have taken := trail.begun_take token
          cases armTurn (some token) with
          | further =>
              apply Fair.skip
              intro left enough
              apply (fair.arm taken (by omega)).bind
              intro next fewerLeft armed _ less still
              apply (ih (still taken) (by omega)).bind
              intros
              trivial
          | last =>
              apply Fair.skip
              intro left enough
              apply (fair.block taken (by omega)).bind
              intros
              trivial
          | stop => trivial

theorem FairBelow.resultForm (fair : FairBelow size inner) (within : room ≤ size) :
    (resultForm inner start).Fair room (trail.look (some (.ok token))) Solid := by
  apply Fair.skip
  intro left enough
  apply (fair.required (trail.begun_take token) (by omega)).bind
  intros
  rfl

theorem FairBelow.conditionalForm (fair : FairBelow size inner) (within : room ≤ size) :
    (conditionalForm inner limit start).Fair room (trail.look (some (.ok token))) Solid := by
  apply Fair.skip
  intro left enough
  have begun := trail.begun_take token
  apply (fair.arm begun (by omega)).bind
  intro first fewer armed _ less still
  apply (fair.furtherArms (still begun) (by omega)).bind
  intros
  rfl

theorem FairBelow.loopForm (fair : FairBelow size inner) (within : room ≤ size) :
    (loopForm inner limit start).Fair room (trail.look (some (.ok token))) Solid := by
  apply Fair.skip
  intro left enough
  apply (fair.arm (trail.begun_take token) (by omega)).bind
  intros
  rfl

/-! ### Behind an operand -/

theorem FairBelow.accesses (fair : FairBelow size inner) (within : room ≤ size)
    {left : Expression} (solid : left.isVoid = false) :
    (accesses inner start limit left).Fair room trail Solid := by
  induction limit generalizing room trail left with
  | zero => exact solid
  | succ limit ih =>
      rw [accesses_succ]
      apply Fair.peek
      intro answer _
      cases answer with
      | none => exact solid
      | some token =>
          have taken := trail.begun_take token
          cases accessTurn (some token) with
          | member =>
              apply Fair.skip
              intro remaining enough
              apply (fair_expectName taken).bind
              intro _ fewerLeft named _ less still
              exact ih (by omega) rfl
          | index =>
              apply Fair.skip
              intro remaining enough
              apply (fair.required taken (by omega)).bind
              intro position fewerLeft found _ less still
              apply (fair_expect (still taken)).bind
              intro _ fewest closed _ least _
              exact ih (by omega) rfl
          | stop => exact solid

theorem FairBelow.chain (fair : FairBelow size inner) (within : room ≤ size)
    {left : Expression} (solid : left.isVoid = false) :
    (chain inner bound start limit left).Fair room trail Solid := by
  induction limit generalizing room trail left with
  | zero => exact solid
  | succ limit ih =>
      rw [chain_succ]
      apply Fair.peek
      intro answer _
      cases answer with
      | none => exact solid
      | some token =>
          cases turn : chainTurn bound (some token) with
          | stop => exact solid
          | extend operator =>
              have taken := trail.begun_take token
              apply Fair.skip
              intro remaining enough
              apply (fair.required taken (by omega)).bind
              intro right fewerLeft found _ less still
              exact ih (by omega) rfl
          | refuse failure =>
              obtain ⟨_, same, place, told⟩ := chainTurn_refuse turn
              cases same
              refine Halt.Justified.ahead ⟨place, ?_⟩
              rcases told with unexpected | ⟨operator, stands, invalid⟩
              · rw [unexpected]
                rfl
              · rw [invalid]
                exact stands

/-! ### Whole expressions -/

theorem FairBelow.statementThen (fair : FairBelow size inner) {statement : Reading Expression}
    (formed : statement.Fair room trail Solid) (within : room ≤ size) :
    (statementThen inner limit start statement).Fair room trail Leaves := by
  apply formed.bind
  intro first left formedTrail solid less _
  apply (fair.accesses (by omega) solid).bind
  intro tree fewer after solidTree _ _
  exact .solid solidTree after

theorem FairBelow.startingWith (fair : FairBelow size inner) (within : room ≤ size) :
    (startingWith inner limit bound token).Fair room (trail.look (some (.ok token))) Leaves := by
  rw [startingWith_eq]
  cases turn : startTurn token.kind with
  | separator =>
      apply Fair.skip
      intro left enough
      exact fair (by omega)
  | brace =>
      obtain ⟨kind, place⟩ := token
      cases startTurn_kind? (congrArg StartTurn.kind? turn)
      rfl
  | result => exact fair.statementThen (fair.resultForm within) within
  | conditional => exact fair.statementThen (fair.conditionalForm within) within
  | loop => exact fair.statementThen (fair.loopForm within) within
  | operand =>
      apply (fair.operand within).bind
      intro first left behind solid less _
      apply (fair.accesses (by omega) solid).bind
      intro accessed fewer middle solidAccessed lessAgain _
      apply (fair.chain (by omega) solidAccessed).bind
      intro tree fewest after solidTree _ _
      exact .solid solidTree after

/-- An expression is read fairly with fewer items left than its limit. -/
theorem expression_fair (limit : Nat) : FairBelow limit (expression limit) := by
  induction limit with
  | zero =>
      intro bound room trail fewer
      omega
  | succ limit ih =>
      intro bound room trail fewer
      apply Fair.peek
      intro answer _
      cases answer with
      | none => rfl
      | some token => exact ih.startingWith (by omega)

theorem programForm_fair {count : Nat} (fewer : room < limit) :
    (programForm limit count).Fair room trail Anything := by
  induction count generalizing room trail with
  | zero => trivial
  | succ count ih =>
      apply (expression_fair limit fewer).bind
      intro answer left after leaves less _
      cases turn : programTurn answer with
      | finish => trivial
      | stray place =>
          cases programTurn_stray turn
          exact .ahead_of leaves (names_unexpected ⟨.mark .rightBrace, place⟩)
      | element tree =>
          apply (ih (by omega)).bind
          intros
          trivial

end Shading.Grammar
