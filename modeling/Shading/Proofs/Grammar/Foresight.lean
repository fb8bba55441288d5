import Shading.Proofs.Grammar.Limits
import Shading.Proofs.Invariants

/-!
How far a parser has looked where an expression ends.

Nothing tells a parser that an expression is complete but the token behind it, so it has looked
at that token, and at no further one. Accesses and chains of operators end with a look, and
whatever else an expression consists of has one of them behind it.
-/

namespace Shading

open Grammar

section Looked

variable {σ α β : Type} [Source σ TokenItem] [LawfulSource σ] {parser after : Parser σ}

def Parser.Looked (parser : Parser σ) : Prop := parser.held = parser.pending.head?

/-- Nothing has happened to a parser since it looked at what is next, be it an item or the end. -/
def Parser.JustLooked (parser : Parser σ) : Prop := ∃ earlier : Parser σ, earlier.peek.2 = parser

theorem Parser.JustLooked.looked (since : parser.JustLooked) : parser.Looked := by
  obtain ⟨earlier, rfl⟩ := since
  unfold Looked
  rw [Lookahead.peek_held, Lookahead.peek_fst, Lookahead.peek_pending]

namespace Reading

/-- On a parser with fewer than `size` items left, the reading answers only where it has
looked at what is next. -/
structure EndsLooking (size : Nat) (reading : Reading α) : Prop where
  looked : ∀ {σ : Type} [Source σ TokenItem] [LawfulSource σ] {parser after : Parser σ}
    {answer : α},
    parser.pending.length < size → reading.run parser = (.ok answer, after) → after.JustLooked

structure StaysLooking (size : Nat) (reading : Reading α) : Prop where
  looked : ∀ {σ : Type} [Source σ TokenItem] [LawfulSource σ] {parser after : Parser σ}
    {answer : α},
    parser.pending.length < size → parser.JustLooked →
      reading.run parser = (.ok answer, after) → after.JustLooked

theorem staysLooking_pure {size : Nat} (value : α) :
    (pure value : Reading α).StaysLooking size := by
  constructor
  intro σ _ _ parser after answer _ looked ran
  cases ran
  exact looked

omit [LawfulSource σ] in
theorem run_bind_ok {reading : Reading α} {following : α → Reading β} {answer : β}
    (ran : (reading >>= following).run parser = (.ok answer, after)) :
    ∃ value middle, reading.run parser = (.ok value, middle) ∧
      (following value).run middle = (.ok answer, after) := by
  change (reading.andThen following).run parser = _ at ran
  rw [run_andThen] at ran
  rcases first : reading.run parser with ⟨failure | value, middle⟩
  · rw [first] at ran
    cases ran
  · rw [first] at ran
    exact ⟨value, middle, rfl, ran⟩

variable {size : Nat} {reading : Reading α} {following : α → Reading β}

theorem EndsLooking.stays (ends : reading.EndsLooking size) : reading.StaysLooking size :=
  ⟨fun shorter _ ran => ends.looked shorter ran⟩

theorem staysLooking_fail (failure : SyntaxError) :
    (fail failure : Reading α).StaysLooking size := by
  constructor
  intro σ _ _ parser after answer _ _ ran
  cases ran

theorem EndsLooking.bind (ends : ∀ value, (following value).EndsLooking size) :
    (reading >>= following).EndsLooking size := by
  constructor
  intro σ _ _ parser after answer shorter ran
  obtain ⟨value, middle, first, second⟩ := run_bind_ok ran
  have fewer := run_length_le first
  exact (ends value).looked (by omega) second

theorem EndsLooking.bind_pure {made : α → β} (ends : reading.EndsLooking size) :
    (reading >>= fun value => pure (made value)).EndsLooking size := by
  constructor
  intro σ _ _ parser after answer shorter ran
  obtain ⟨value, middle, first, second⟩ := run_bind_ok ran
  cases second
  exact ends.looked shorter first

theorem EndsLooking.bind_shorter
    (shortens : ∀ {σ : Type} [Source σ TokenItem] [LawfulSource σ] {parser after : Parser σ}
      {value : α}, reading.run parser = (.ok value, after) →
        after.pending.length < parser.pending.length)
    (ends : ∀ value, (following value).EndsLooking size) :
    (reading >>= following).EndsLooking (size + 1) := by
  constructor
  intro σ _ _ parser after answer shorter ran
  obtain ⟨value, middle, first, second⟩ := run_bind_ok ran
  have fewer := shortens first
  exact (ends value).looked (by omega) second

theorem EndsLooking.skip {following : Unit → Reading β} (ends : (following ()).EndsLooking size) :
    (Reading.skip >>= following).EndsLooking (size + 1) :=
  EndsLooking.bind_shorter run_skip_length fun _ => ends

theorem EndsLooking.peek {following : Option Token → Reading β}
    (stays : ∀ answer, (following answer).StaysLooking size) :
    (Reading.peek >>= following).EndsLooking size := by
  constructor
  intro σ _ _ parser after answer shorter ran
  obtain ⟨seen, middle, first, second⟩ := run_bind_ok ran
  have fewer := run_length_le first
  have looked : middle.JustLooked := by
    have left : Parser.JustLooked parser.peek.2 := ⟨parser, rfl⟩
    change (look done).run parser = _ at first
    rw [run] at first
    generalize parser.peek = answered at first left
    rcases answered with ⟨_ | ⟨failure | token⟩, behind⟩ <;> cases first <;> exact left
  exact (stays seen).looked (by omega) looked second

end Reading

end Looked

namespace Grammar

open Reading

variable {inner : Inner} {limit : Nat} {start : Location} {bound : Precedence}

/-! ### Behind an operand -/

theorem accesses_endsLooking (left : Expression) :
    (accesses inner start limit left).EndsLooking limit := by
  induction limit generalizing left with
  | zero => exact ⟨fun absurdity => absurd absurdity (Nat.not_lt_zero _)⟩
  | succ limit ih =>
      rw [accesses_succ]
      apply EndsLooking.peek
      intro answer
      cases accessTurn answer with
      | member => exact (EndsLooking.skip (.bind fun _ => ih _)).stays
      | index => exact (EndsLooking.skip (.bind fun _ => .bind fun _ => ih _)).stays
      | stop => exact staysLooking_pure left

theorem chain_endsLooking (left : Expression) :
    (chain inner bound start limit left).EndsLooking limit := by
  induction limit generalizing left with
  | zero => exact ⟨fun absurdity => absurd absurdity (Nat.not_lt_zero _)⟩
  | succ limit ih =>
      rw [chain_succ]
      apply EndsLooking.peek
      intro answer
      cases chainTurn bound answer with
      | stop => exact staysLooking_pure left
      | extend operator => exact (EndsLooking.skip (.bind fun _ => ih _)).stays
      | refuse failure => exact staysLooking_fail failure

/-! ### Whole expressions -/

theorem statementThen_endsLooking {statement : Unit → Reading Expression} :
    (statementThen inner limit start (skip >>= statement)).EndsLooking (limit + 1) :=
  EndsLooking.bind_shorter run_skip_then_length fun first =>
    (accesses_endsLooking first).bind_pure

/-- A closing brace was looked at before; every other expression ends with a look. -/
theorem startingWith_staysLooking {token : Token}
    (ends : (inner bound).EndsLooking limit) :
    (startingWith inner limit bound token).StaysLooking (limit + 1) := by
  rw [startingWith_eq]
  cases startTurn token.kind with
  | separator => exact (EndsLooking.skip ends).stays
  | brace => exact staysLooking_pure _
  | result => exact statementThen_endsLooking.stays
  | conditional => exact statementThen_endsLooking.stays
  | loop => exact statementThen_endsLooking.stays
  | operand =>
      apply EndsLooking.stays
      apply EndsLooking.bind_shorter run_operand_length
      intro first
      apply EndsLooking.bind
      intro left
      exact (chain_endsLooking left).bind_pure

theorem expression_endsLooking (limit : Nat) : (expression limit bound).EndsLooking limit := by
  induction limit with
  | zero => exact ⟨fun absurdity => absurd absurdity (Nat.not_lt_zero _)⟩
  | succ limit ih =>
      apply EndsLooking.peek
      intro answer
      cases answer with
      | none => exact staysLooking_pure none
      | some token => exact startingWith_staysLooking ih

theorem required_endsLooking (limit : Nat) :
    (required (expression limit) bound).EndsLooking limit := by
  constructor
  intro σ _ _ parser after answer shorter ran
  obtain ⟨value, middle, first, second⟩ := run_bind_ok ran
  cases value with
  | none => cases second
  | some tree =>
      cases second
      exact (expression_endsLooking limit).looked shorter first

end Grammar

/-- Where an expression is complete, or there is none, the last request was a look. -/
theorem Parser.justLooked_of_expression {σ : Type} [Source σ TokenItem] [LawfulSource σ]
    {parser after : Parser σ} {bound : Precedence} {answer : Option Expression}
    (parsed : parser.expression bound = (.ok answer, after)) : after.JustLooked :=
  (expression_endsLooking _).looked (pending_within parser) parsed

theorem Parser.looked_of_expression {σ : Type} [Source σ TokenItem] [LawfulSource σ]
    {parser after : Parser σ} {bound : Precedence} {answer : Option Expression}
    (parsed : parser.expression bound = (.ok answer, after)) : after.Looked :=
  (justLooked_of_expression parsed).looked

theorem Parser.Along.pulled_of_looked {σ : Type} [Source σ TokenItem] {parser : Parser σ}
    {items : List TokenItem} (along : parser.Along items) (looked : parser.Looked) :
    parser.pulled = min (parser.taken + 1) items.length := by
  have held := looked
  unfold Looked at held
  rw [along.left, List.head?_drop] at held
  unfold Lookahead.pulled
  rw [held]
  have within := along.within
  by_cases more : parser.taken < items.length
  · rw [List.getElem?_eq_getElem more, Option.toList_some, List.length_singleton]
    omega
  · rw [List.getElem?_eq_none (Nat.le_of_not_lt more), Option.toList_none, List.length_nil]
    omega

end Shading
