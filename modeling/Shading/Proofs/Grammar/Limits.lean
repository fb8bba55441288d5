import Shading.Proofs.Grammar.Recognition
import Shading.Proofs.Grammar.Turns

/-!
A limit above the number of items never shows.

What is accepted is known not to depend on the limit. Here the same is proved of
everything else a parser does: with any two limits above the number of items still
to come, an expression is read with the same result, errors included, and leaves the
same parser behind.
-/

namespace Shading

/-! ### Steps in a row -/

namespace Reading

variable {α β : Type} {input rest : List TokenItem}

section Run

variable {σ : Type} [Source σ TokenItem] [LawfulSource σ] {parser after : Parser σ}

theorem run_length_le {reading : Reading α} {answer : α}
    (ran : reading.run parser = (.ok answer, after)) :
    after.pending.length ≤ parser.pending.length :=
  (accepts_of_run ran).suffix.length_le

theorem run_skip_length {answer : Unit} (ran : skip.run parser = (.ok answer, after)) :
    after.pending.length < parser.pending.length := by
  obtain ⟨token, split⟩ := accepts_skip.mp (accepts_of_run ran)
  rw [split, List.length_cons]
  exact Nat.lt_succ_self _

omit [LawfulSource σ] in
/-- Readings in a row run alike if the first ones do, and those that follow do where
the first one stopped. -/
theorem run_bind_congr {first second : Reading α} {following others : α → Reading β}
    (same : first.run parser = second.run parser)
    (behind : ∀ {value : α} {after : Parser σ}, first.run parser = (.ok value, after) →
      (following value).run after = (others value).run after) :
    (first >>= following).run parser = (second >>= others).run parser := by
  change (first.andThen following).run parser = (second.andThen others).run parser
  rw [run_andThen, run_andThen, ← same]
  rcases ran : first.run parser with ⟨failure | value, after⟩
  · rfl
  · exact behind ran

theorem run_step_congr {first second : Reading α} {following others : α → Reading β}
    (same : first.run parser = second.run parser)
    (behind : ∀ {value : α} {after : Parser σ},
      after.pending.length ≤ parser.pending.length →
        (following value).run after = (others value).run after) :
    (first >>= following).run parser = (second >>= others).run parser :=
  run_bind_congr same fun ran => behind (run_length_le ran)

theorem run_skip_congr {following others : Unit → Reading β}
    (behind : ∀ {after : Parser σ}, after.pending.length < parser.pending.length →
      (following ()).run after = (others ()).run after) :
    (skip >>= following).run parser = (skip >>= others).run parser :=
  run_bind_congr rfl fun skipped => behind (run_skip_length skipped)

theorem run_peek_congr {following others : Option Token → Reading β}
    (behind : ∀ {answer : Option Token} {after : Parser σ}, after.pending = parser.pending →
      parser.pending.head? = answer.map .ok →
        (following answer).run after = (others answer).run after) :
    (peek >>= following).run parser = (peek >>= others).run parser := by
  have shown := parser.peek_fst
  have kept := parser.peek_pending
  change (look following).run parser = (look others).run parser
  rw [run, run]
  rcases peeked : parser.peek with ⟨_ | ⟨failure | token⟩, after⟩
  · rw [peeked] at shown kept
    exact behind kept shown.symm
  · rfl
  · rw [peeked] at shown kept
    exact behind kept shown.symm

end Run

end Reading

namespace Grammar

open Reading

/-- Two readings of inner expressions that run alike on every parser with fewer items
than a size, where the first is faithful. -/
structure Alike (size : Nat) (inner other : Inner) : Prop where
  faithful : Faithful inner size
  same : ∀ {σ : Type} [Source σ TokenItem] [LawfulSource σ] {parser : Parser σ}
    {bound : Precedence}, parser.pending.length < size →
      (inner bound).run parser = (other bound).run parser

variable {σ : Type} [Source σ TokenItem] [LawfulSource σ] {parser after : Parser σ}
  {inner other : Inner} {size limit another : Nat} {start : Location}

namespace Alike

theorem required (alike : Alike size inner other) {bound : Precedence}
    (shorter : parser.pending.length < size) :
    (required inner bound).run parser = (required other bound).run parser :=
  run_bind_congr (alike.same shorter) fun _ => rfl

theorem reads (alike : Alike size inner other) {bound : Precedence} {value : Expression}
    (shorter : parser.pending.length < size)
    (found : (Grammar.required inner bound).run parser = (.ok value, after)) :
    ReadsExpression bound parser.pending value after.pending :=
  (Faithful.required alike.faithful shorter).mp (accepts_of_run found)

/-! ### Operands -/

theorem arguments (alike : Alike size inner other) {standing : ArgumentPlace}
    (within : parser.pending.length < limit) (withinOther : parser.pending.length < another)
    (shorter : parser.pending.length < size) :
    (arguments inner limit standing).run parser =
      (arguments other another standing).run parser := by
  induction limit generalizing another parser standing with
  | zero => omega
  | succ limit ih =>
  cases another with
  | zero => omega
  | succ another =>
      rw [arguments_succ, arguments_succ]
      refine run_peek_congr fun {answer after} kept _ => ?_
      cases argumentTurn standing answer with
      | ended => rfl
      | close => rfl
      | refuse failure => rfl
      | comma =>
          refine run_skip_congr fun {behind} less => ?_
          rw [kept] at less
          exact ih (by omega) (by omega) (by omega)
      | argument =>
          rw [← kept] at within withinOther shorter
          refine run_bind_congr (alike.required shorter) fun {value behind} found => ?_
          refine run_bind_congr ?_ fun _ => rfl
          have derived := alike.reads shorter found
          cases solid : value.isVoid with
          | false =>
              have progress := derived.shorter solid
              exact ih (by omega) (by omega) (by omega)
          | true =>
              -- No item was taken, and the brace that is still ahead is refused next.
              obtain ⟨place, later, _, ahead⟩ := derived.brace_ahead solid
              have some := derived.takes.length_le
              rw [ahead, List.length_cons] at some
              obtain ⟨limit, rfl⟩ := Nat.exists_eq_add_of_lt (show 0 < limit by omega)
              obtain ⟨another, rfl⟩ := Nat.exists_eq_add_of_lt (show 0 < another by omega)
              rw [arguments_succ, arguments_succ]
              refine run_peek_congr fun {answer after} _ head => ?_
              rw [ahead] at head
              rcases answer with _ | token
              · cases head
              · cases head
                rfl

theorem callForm (alike : Alike size inner other) {name : String}
    (within : parser.pending.length ≤ limit) (withinOther : parser.pending.length ≤ another)
    (shorter : parser.pending.length ≤ size) :
    (callForm inner limit name start).run parser =
      (callForm other another name start).run parser := by
  refine run_skip_congr fun {behind} less => ?_
  refine run_peek_congr fun {answer after} kept _ => ?_
  cases answer with
  | none => rfl
  | some token =>
      refine run_step_congr rfl fun {_ opened} fewer => ?_
      rw [kept] at fewer
      exact run_bind_congr (alike.arguments (by omega) (by omega) (by omega)) fun _ => rfl

theorem unaryForm (alike : Alike size inner other) {operator : Operator}
    (shorter : parser.pending.length ≤ size) :
    (unaryForm inner operator start).run parser = (unaryForm other operator start).run parser := by
  refine run_skip_congr fun {behind} less => ?_
  split
  · exact run_bind_congr (alike.required (by omega)) fun _ => rfl
  · rfl

theorem parenthesizedForm (alike : Alike size inner other)
    (shorter : parser.pending.length ≤ size) :
    (parenthesizedForm inner start).run parser = (parenthesizedForm other start).run parser := by
  refine run_skip_congr fun {behind} less => ?_
  exact run_bind_congr (alike.required (by omega)) fun _ => rfl

theorem operand (alike : Alike size inner other) {token : Token}
    (within : parser.pending.length ≤ limit) (withinOther : parser.pending.length ≤ another)
    (shorter : parser.pending.length ≤ size) :
    (operand inner limit token).run parser = (operand other another token).run parser := by
  rw [operand_eq, operand_eq]
  cases operandTurn token.kind with
  | call name => exact alike.callForm within withinOther shorter
  | parenthesized => exact alike.parenthesizedForm shorter
  | unary operator => exact alike.unaryForm shorter
  | _ => rfl

/-! ### Statements -/

theorem blockRest (alike : Alike size inner other)
    (within : parser.pending.length < limit) (withinOther : parser.pending.length < another)
    (shorter : parser.pending.length < size) :
    (blockRest inner limit).run parser = (blockRest other another).run parser := by
  induction limit generalizing another parser with
  | zero => omega
  | succ limit ih =>
  cases another with
  | zero => omega
  | succ another =>
      rw [Grammar.blockRest, Grammar.blockRest]
      refine run_peek_congr fun {answer after} kept _ => ?_
      rw [← kept] at within withinOther shorter
      cases answer with
      | none => rfl
      | some token =>
          refine run_bind_congr (alike.required shorter) fun {value behind} found => ?_
          split
          · rfl
          · rename_i solid
            have progress := (alike.reads shorter found).shorter (Bool.eq_false_iff.mpr solid)
            exact run_bind_congr (ih (by omega) (by omega) (by omega)) fun _ => rfl

theorem block (alike : Alike size inner other)
    (within : parser.pending.length < limit) (withinOther : parser.pending.length < another)
    (shorter : parser.pending.length < size) :
    (block inner limit).run parser = (block other another).run parser := by
  refine run_step_congr rfl fun {_ behind} fewer => ?_
  exact alike.blockRest (by omega) (by omega) (by omega)

theorem condition (alike : Alike size inner other) (shorter : parser.pending.length < size) :
    (condition inner).run parser = (condition other).run parser := by
  refine run_step_congr rfl fun {_ behind} fewer => ?_
  exact run_bind_congr (alike.required (by omega)) fun _ => rfl

theorem arm (alike : Alike size inner other)
    (within : parser.pending.length < limit) (withinOther : parser.pending.length < another)
    (shorter : parser.pending.length < size) :
    (arm inner limit).run parser = (arm other another).run parser := by
  refine run_step_congr (alike.condition shorter) fun {_ behind} fewer => ?_
  exact run_bind_congr (alike.block (by omega) (by omega) (by omega)) fun _ => rfl

theorem furtherArms (alike : Alike size inner other) {blockLimit otherBlockLimit : Nat}
    (within : parser.pending.length < limit) (withinOther : parser.pending.length < another)
    (blocksWithin : parser.pending.length < blockLimit)
    (blocksWithinOther : parser.pending.length < otherBlockLimit)
    (shorter : parser.pending.length < size) :
    (furtherArms inner blockLimit limit).run parser =
      (furtherArms other otherBlockLimit another).run parser := by
  induction limit generalizing another parser with
  | zero => omega
  | succ limit ih =>
  cases another with
  | zero => omega
  | succ another =>
      rw [furtherArms_succ, furtherArms_succ]
      refine run_peek_congr fun {answer after} kept _ => ?_
      cases armTurn answer with
      | stop => rfl
      | further =>
          refine run_skip_congr fun {behind} less => ?_
          rw [kept] at less
          refine run_step_congr (alike.arm (by omega) (by omega) (by omega))
            fun {_ closed} fewer => ?_
          exact run_bind_congr (ih (by omega) (by omega) (by omega) (by omega) (by omega))
            fun _ => rfl
      | last =>
          refine run_skip_congr fun {behind} less => ?_
          rw [kept] at less
          exact run_bind_congr (alike.block (by omega) (by omega) (by omega)) fun _ => rfl

theorem resultForm (alike : Alike size inner other) (shorter : parser.pending.length ≤ size) :
    (resultForm inner start).run parser = (resultForm other start).run parser := by
  refine run_skip_congr fun {behind} less => ?_
  exact run_bind_congr (alike.required (by omega)) fun _ => rfl

theorem conditionalForm (alike : Alike size inner other)
    (within : parser.pending.length ≤ limit) (withinOther : parser.pending.length ≤ another)
    (shorter : parser.pending.length ≤ size) :
    (conditionalForm inner limit start).run parser =
      (conditionalForm other another start).run parser := by
  refine run_skip_congr fun {behind} less => ?_
  refine run_step_congr (alike.arm (by omega) (by omega) (by omega)) fun {_ closed} fewer => ?_
  exact run_bind_congr
    (alike.furtherArms (by omega) (by omega) (by omega) (by omega) (by omega)) fun _ => rfl

theorem loopForm (alike : Alike size inner other)
    (within : parser.pending.length ≤ limit) (withinOther : parser.pending.length ≤ another)
    (shorter : parser.pending.length ≤ size) :
    (loopForm inner limit start).run parser = (loopForm other another start).run parser := by
  refine run_skip_congr fun {behind} less => ?_
  exact run_bind_congr (alike.arm (by omega) (by omega) (by omega)) fun _ => rfl

/-! ### Behind an operand -/

theorem accesses (alike : Alike size inner other) {left : Expression}
    (within : parser.pending.length < limit) (withinOther : parser.pending.length < another)
    (shorter : parser.pending.length < size) :
    (accesses inner start limit left).run parser =
      (accesses other start another left).run parser := by
  induction limit generalizing another parser left with
  | zero => omega
  | succ limit ih =>
  cases another with
  | zero => omega
  | succ another =>
      rw [accesses_succ, accesses_succ]
      refine run_peek_congr fun {answer after} kept _ => ?_
      cases accessTurn answer with
      | stop => rfl
      | member =>
          refine run_skip_congr fun {behind} less => ?_
          rw [kept] at less
          refine run_step_congr rfl fun {_ named} fewer => ?_
          exact ih (by omega) (by omega) (by omega)
      | index =>
          refine run_skip_congr fun {behind} less => ?_
          rw [kept] at less
          refine run_step_congr (alike.required (by omega)) fun {_ found} fewer => ?_
          refine run_step_congr rfl fun {_ closed} fewest => ?_
          exact ih (by omega) (by omega) (by omega)

theorem chain (alike : Alike size inner other) {bound : Precedence} {left : Expression}
    (within : parser.pending.length < limit) (withinOther : parser.pending.length < another)
    (shorter : parser.pending.length < size) :
    (chain inner bound start limit left).run parser =
      (chain other bound start another left).run parser := by
  induction limit generalizing another parser left with
  | zero => omega
  | succ limit ih =>
  cases another with
  | zero => omega
  | succ another =>
      rw [chain_succ, chain_succ]
      refine run_peek_congr fun {answer after} kept _ => ?_
      cases chainTurn bound answer with
      | stop => rfl
      | refuse failure => rfl
      | extend operator =>
          refine run_skip_congr fun {behind} less => ?_
          rw [kept] at less
          refine run_step_congr (alike.required (by omega)) fun {_ found} fewer => ?_
          exact ih (by omega) (by omega) (by omega)

/-! ### Whole expressions -/

theorem statementThen (alike : Alike size inner other) {statement companion : Reading Expression}
    (same : statement.run parser = companion.run parser)
    (progress : ∀ {tree : Expression} {after : Parser σ},
      statement.run parser = (.ok tree, after) → after.pending.length < parser.pending.length)
    (within : parser.pending.length ≤ limit) (withinOther : parser.pending.length ≤ another)
    (shorter : parser.pending.length ≤ size) :
    (statementThen inner limit start statement).run parser =
      (statementThen other another start companion).run parser := by
  refine run_bind_congr same fun {_ behind} formed => ?_
  have less := progress formed
  exact run_bind_congr (alike.accesses (by omega) (by omega) (by omega)) fun _ => rfl

end Alike

theorem run_skip_then_length {α : Type} {following : Unit → Reading α} {answer : α}
    (ran : (skip >>= following).run parser = (.ok answer, after)) :
    after.pending.length < parser.pending.length := by
  obtain ⟨_, middle, skipped, accepted⟩ := accepts_bind.mp (accepts_of_run ran)
  obtain ⟨token, split⟩ := accepts_skip.mp skipped
  rw [split, List.length_cons]
  exact Nat.lt_succ_of_le accepted.suffix.length_le

theorem run_operand_length {token : Token} {tree : Expression}
    (ran : (operand inner limit token).run parser = (.ok tree, after)) :
    after.pending.length < parser.pending.length := by
  rw [operand_eq] at ran
  cases turn : operandTurn token.kind <;> rw [turn] at ran
  case refuse => cases ran
  all_goals exact run_skip_then_length ran

theorem Alike.startingWith (alike : Alike size inner other) {bound : Precedence} {token : Token}
    (within : parser.pending.length ≤ limit) (withinOther : parser.pending.length ≤ another)
    (shorter : parser.pending.length ≤ size) :
    (startingWith inner limit bound token).run parser =
      (startingWith other another bound token).run parser := by
  rw [startingWith_eq, startingWith_eq]
  cases startTurn token.kind with
  | separator =>
      refine run_skip_congr fun {behind} less => ?_
      exact alike.same (by omega)
  | brace => rfl
  | result =>
      exact alike.statementThen (alike.resultForm shorter) run_skip_then_length within withinOther
        shorter
  | conditional =>
      exact alike.statementThen (alike.conditionalForm within withinOther shorter)
        run_skip_then_length within withinOther shorter
  | loop =>
      exact alike.statementThen (alike.loopForm within withinOther shorter) run_skip_then_length
        within withinOther shorter
  | operand =>
      refine run_bind_congr (alike.operand within withinOther shorter) fun {_ behind} formed => ?_
      have less := run_operand_length formed
      refine run_step_congr (alike.accesses (by omega) (by omega) (by omega))
        fun {_ named} fewer => ?_
      exact run_bind_congr (alike.chain (by omega) (by omega) (by omega)) fun _ => rfl

theorem expression_alike (limit another : Nat) :
    Alike (min limit another) (expression limit) (expression another) := by
  induction limit generalizing another with
  | zero =>
      refine ⟨?_, ?_⟩
      · intro bound input rest tree shorter
        omega
      · intro σ _ _ parser bound shorter
        omega
  | succ limit ih =>
      refine ⟨?_, ?_⟩
      · intro bound input rest tree shorter
        exact expression_faithful (limit + 1) (by omega)
      · intro σ _ _ parser bound shorter
        cases another with
        | zero => omega
        | succ another =>
            rw [expression, expression]
            refine run_peek_congr fun {answer after} kept _ => ?_
            rw [← kept] at shorter
            cases answer with
            | none => rfl
            | some token => exact (ih another).startingWith (by omega) (by omega) (by omega)

end Grammar

end Shading
