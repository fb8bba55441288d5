import Shading.Proofs.Grammar.Foresight
import Shading.Proofs.Grammar.Program

/-!
Loops that are never run out of passes.

A loop of the grammar looks ahead, and either ends or makes a pass. Each loop is written with a
limit on its passes, behind which it stops; here this end is replaced by anything at all. It
never shows, because a pass that goes on has taken an item, also where all it does is to read
an inner expression that was not begun yet. Only the loop around the arguments of a call makes
a pass that may take nothing, over an argument that is empty, and then the next pass fails.
-/

namespace Shading

/-! ### Passes in a row -/

/-- What a pass of a loop comes to. The loop is left with an answer, or it goes on from a state,
and something is made of the answer it comes to there. -/
inductive Pass (ς α : Type) where
  | leave (answer : α)
  | again (state : ς) (around : α → α)

namespace Reading

variable {ς α : Type}

def passes (pass : ς → Reading (Pass ς α)) (beyond : ς → Reading α) : Nat → ς → Reading α
  | 0, state => beyond state
  | limit + 1, state => do
    match ← pass state with
    | .leave answer => pure answer
    | .again next around => do
      let answer ← passes pass beyond limit next
      pure (around answer)

/-- With fewer than `size` items left, the pass goes on only if it has taken an item. -/
structure Advances (size : Nat) (pass : Reading (Pass ς α)) : Prop where
  shorter : ∀ {σ : Type} [Source σ TokenItem] [LawfulSource σ] {parser after : Parser σ}
    {next : ς} {around : α → α}, parser.pending.length < size →
      pass.run parser = (.ok (.again next around), after) →
        after.pending.length < parser.pending.length

def Productive (size : Nat) (pass : ς → Reading (Pass ς α)) : Prop :=
  ∀ state, (pass state).Advances size

/-- With fewer than `size` items left, a pass from this state goes on only if it has taken an item
or if the pass behind it fails, which is not for want of items. -/
structure Settles (size : Nat) (pass : ς → Reading (Pass ς α)) (state : ς) : Prop where
  shorter : ∀ {σ : Type} [Source σ TokenItem] [LawfulSource σ] {parser after : Parser σ}
    {next : ς} {around : α → α}, parser.pending.length < size →
      (pass state).run parser = (.ok (.again next around), after) →
        after.pending.length < parser.pending.length ∨
          0 < after.pending.length ∧
            ∃ failure last, (pass next).run after = (.error failure, last)

theorem Advances.settles {size : Nat} {pass : ς → Reading (Pass ς α)} {state : ς}
    (advances : (pass state).Advances size) : Settles size pass state :=
  ⟨fun shorter passed => .inl (advances.shorter shorter passed)⟩

variable {σ : Type} [Source σ TokenItem] [LawfulSource σ] {parser : Parser σ}
  {size limit another : Nat} {pass other : ς → Reading (Pass ς α)}
  {beyond otherBeyond : ς → Reading α}

omit [LawfulSource σ] in
theorem run_passes_error {after : Parser σ} {state : ς} {failure : SyntaxError}
    (failed : (pass state).run parser = (.error failure, after)) :
    (passes pass beyond (limit + 1) state).run parser = (.error failure, after) := by
  change ((pass state).andThen _).run parser = _
  rw [run_andThen, failed]

/-- Passes that run alike make up loops that run alike, whatever stands beyond more passes than
there are items. -/
theorem passes_congr (settles : ∀ state, Settles size pass state)
    (same : ∀ {parser : Parser σ} {state : ς}, parser.pending.length < size →
      (pass state).run parser = (other state).run parser)
    (shorter : parser.pending.length < size) (within : parser.pending.length < limit)
    (withinOther : parser.pending.length < another) (state : ς) :
    (passes pass beyond limit state).run parser =
      (passes other otherBeyond another state).run parser := by
  induction limit generalizing another parser state with
  | zero => omega
  | succ limit ih =>
  cases another with
  | zero => omega
  | succ another =>
      refine run_bind_congr (same shorter) fun {outcome after} passed => ?_
      cases outcome with
      | leave answer => rfl
      | again next around =>
          refine run_bind_congr ?_ fun _ => rfl
          have fewer := run_length_le passed
          rcases (settles state).shorter shorter passed with less | ⟨some, failure, last, failed⟩
          · exact ih (by omega) (by omega) (by omega) next
          · -- Where a pass takes nothing, both loops end with the failure of the next one.
            have failedOther := failed
            rw [same (by omega)] at failedOther
            obtain ⟨limit, rfl⟩ : ∃ rest, limit = rest + 1 := ⟨limit - 1, by omega⟩
            obtain ⟨another, rfl⟩ : ∃ rest, another = rest + 1 := ⟨another - 1, by omega⟩
            rw [run_passes_error failed, run_passes_error failedOther]

/-- With fewer than `size` items left, a form is a loop of these passes, whatever stands beyond
more passes than there are items. -/
def Loops (size : Nat) (pass : ς → Reading (Pass ς α)) (form : Nat → ς → Reading α) : Prop :=
  ∀ {σ : Type} [Source σ TokenItem] [LawfulSource σ] {parser : Parser σ} {limit another : Nat}
    (beyond : ς → Reading α) (state : ς), parser.pending.length < size →
      parser.pending.length < limit → parser.pending.length < another →
        (form limit state).run parser = (passes pass beyond another state).run parser

theorem loops_of_settles {form : Nat → ς → Reading α} (settles : ∀ state, Settles size pass state)
    (written : ∀ limit state, form limit state = passes pass beyond limit state) :
    Loops size pass form := by
  intro σ _ _ parser limit another others state shorter within withinOther
  rw [written]
  exact passes_congr settles (fun _ => rfl) shorter within withinOther state

structure IsLoop (size : Nat) (pass : ς → Reading (Pass ς α)) (form : Nat → ς → Reading α) :
    Prop where
  productive : Productive size pass
  same : Loops size pass form

theorem Productive.isLoop {form : Nat → ς → Reading α} (productive : Productive size pass)
    (written : ∀ limit state, form limit state = passes pass beyond limit state) :
    IsLoop size pass form :=
  ⟨productive, loops_of_settles (fun state => (productive state).settles) written⟩

theorem run_peek_ok {β : Type} {following : Option Token → Reading β} {answer : β}
    {after : Parser σ} (ran : (peek >>= following).run parser = (.ok answer, after)) :
    ∃ seen middle, middle.pending = parser.pending ∧
      (following seen).run middle = (.ok answer, after) := by
  have kept := parser.peek_pending
  change (look following).run parser = _ at ran
  rw [run] at ran
  generalize parser.peek = answered at ran kept
  rcases answered with ⟨_ | ⟨failure | token⟩, middle⟩
  · exact ⟨none, middle, kept, ran⟩
  · cases ran
  · exact ⟨some token, middle, kept, ran⟩

theorem advances_leave (answer : α) :
    (pure (.leave answer) : Reading (Pass ς α)).Advances size := by
  constructor
  intro σ _ _ parser after next around _ ran
  cases ran

theorem advances_fail (failure : SyntaxError) :
    (fail failure : Reading (Pass ς α)).Advances size := by
  constructor
  intro σ _ _ parser after next around _ ran
  cases ran

theorem advances_failAtLast (fault : Fault) :
    (failAtLast fault : Reading (Pass ς α)).Advances size := by
  constructor
  intro σ _ _ parser after next around _ ran
  cases ran

theorem advances_skip {following : Unit → Reading (Pass ς α)} :
    (skip >>= following).Advances size := by
  constructor
  intro σ _ _ parser after next around _ ran
  exact Grammar.run_skip_then_length ran

theorem Advances.peek {following : Option Token → Reading (Pass ς α)}
    (advances : ∀ seen, (following seen).Advances size) :
    (Reading.peek >>= following).Advances size := by
  constructor
  intro σ _ _ parser after next around shorter ran
  obtain ⟨seen, middle, kept, behind⟩ := run_peek_ok ran
  rw [← kept] at shorter ⊢
  exact (advances seen).shorter shorter behind

theorem run_peek_token {β : Type} {token : Token} {later : List TokenItem}
    (ahead : parser.pending = .ok token :: later) (following : Option Token → Reading β) :
    (peek >>= following).run parser = (following (some token)).run parser.peek.2 := by
  have shown := parser.peek_fst
  rw [ahead] at shown
  change (look following).run parser = _
  rw [run]
  generalize parser.peek = answered at shown
  rcases answered with ⟨answer, behind⟩
  cases shown
  rfl

end Reading

namespace Grammar

open Reading

variable {inner : Inner} {size : Nat} {start : Location} {bound : Precedence}

/-! ### Behind an operand -/

def accessPass (inner : Inner) (start : Location) (left : Expression) :
    Reading (Pass Expression Expression) := do
  match accessTurn (← Reading.peek) with
  | .member => do
    Reading.skip
    let (name, place) ← Reading.expectName
    pure (.again (.binary .member left (.memberName name place) start) id)
  | .index => do
    Reading.skip
    let position ← required inner .lowest
    let _ ← Reading.expect (.mark .rightBracket)
    pure (.again (.binary .index left position start) id)
  | .stop => pure (.leave left)

theorem accessPass_productive : Productive size (accessPass inner start) := by
  intro left
  apply Advances.peek
  intro seen
  cases accessTurn seen with
  | stop => exact advances_leave left
  | member => exact advances_skip
  | index => exact advances_skip

theorem accesses_eq_passes (limit : Nat) (left : Expression) :
    accesses inner start limit left = passes (accessPass inner start) pure limit left := by
  induction limit generalizing left with
  | zero => rfl
  | succ limit ih =>
      rw [accesses_succ, passes, accessPass, bind_assoc]
      congr 1
      funext answer
      cases accessTurn answer with
      | stop => rfl
      | member => simp only [bind_assoc, pure_bind, ih, id, bind_pure]
      | index => simp only [bind_assoc, pure_bind, ih, id, bind_pure]

def chainPass (inner : Inner) (bound : Precedence) (start : Location) (left : Expression) :
    Reading (Pass Expression Expression) := do
  match chainTurn bound (← Reading.peek) with
  | .stop => pure (.leave left)
  | .extend operator => do
    Reading.skip
    let right ← required inner operator.precedence
    pure (.again (.binary operator left right start) id)
  | .refuse failure => .fail failure

theorem chainPass_productive : Productive size (chainPass inner bound start) := by
  intro left
  apply Advances.peek
  intro seen
  cases chainTurn bound seen with
  | stop => exact advances_leave left
  | refuse failure => exact advances_fail failure
  | extend operator => exact advances_skip

theorem chain_eq_passes (limit : Nat) (left : Expression) :
    chain inner bound start limit left = passes (chainPass inner bound start) pure limit left := by
  induction limit generalizing left with
  | zero => rfl
  | succ limit ih =>
      rw [chain_succ, passes, chainPass, bind_assoc]
      congr 1
      funext answer
      cases chainTurn bound answer with
      | stop => rfl
      | refuse failure => rfl
      | extend operator => simp only [bind_assoc, pure_bind, ih, id, bind_pure]

/-! ### Further arms -/

def armPass (inner : Inner) (blockLimit : Nat) (_ : Unit) :
    Reading (Pass Unit (List Arm × Option (List Expression))) := do
  match armTurn (← Reading.peek) with
  | .further => do
    Reading.skip
    let next ← arm inner blockLimit
    pure (.again () fun (others, otherwise) => (next :: others, otherwise))
  | .last => do
    Reading.skip
    let otherwise ← block inner blockLimit
    pure (.leave ([], some otherwise))
  | .stop => pure (.leave ([], none))

theorem armPass_productive {blockLimit : Nat} : Productive size (armPass inner blockLimit) := by
  intro _
  apply Advances.peek
  intro seen
  cases armTurn seen with
  | stop => exact advances_leave ([], none)
  | further => exact advances_skip
  | last => exact advances_skip

theorem furtherArms_eq_passes {blockLimit : Nat} (limit : Nat) (state : Unit) :
    furtherArms inner blockLimit limit =
      passes (armPass inner blockLimit) (fun _ => pure ([], none)) limit state := by
  induction limit generalizing state with
  | zero => rfl
  | succ limit ih =>
      rw [furtherArms_succ, passes, armPass, bind_assoc]
      congr 1
      funext answer
      cases armTurn answer with
      | stop => rfl
      | further =>
          simp only [bind_assoc, pure_bind, ih ()]
      | last => simp only [bind_assoc, pure_bind]

/-! ### Passes that begin with an inner expression -/

theorem Faithful.reads_of_run {σ : Type} [Source σ TokenItem] [LawfulSource σ]
    {parser after : Parser σ} {value : Expression} (faithful : Faithful inner size)
    (shorter : parser.pending.length < size)
    (found : (Grammar.required inner bound).run parser = (.ok value, after)) :
    ReadsExpression bound parser.pending value after.pending :=
  (faithful.required shorter).mp (accepts_of_run found)

/-- A pass that begins with an inner expression has to advance only behind the empty one. -/
theorem Faithful.advances_required {ς α : Type} (faithful : Faithful inner size)
    {following : Expression → Reading (Pass ς α)}
    (advances : ∀ tree, tree.isVoid = true → (following tree).Advances size) :
    (Grammar.required inner bound >>= following).Advances size := by
  constructor
  intro σ _ _ parser after next around shorter ran
  obtain ⟨tree, middle, found, behind⟩ := run_bind_ok ran
  have later := run_length_le behind
  cases empty : tree.isVoid with
  | false =>
      have taken := (faithful.reads_of_run shorter found).shorter empty
      omega
  | true =>
      have further := run_length_le found
      have taken := (advances tree empty).shorter (by omega) behind
      omega

def blockPass (inner : Inner) (_ : Unit) : Reading (Pass Unit (List Expression)) := do
  match ← Reading.peek with
  | none => Reading.failAtLast .unexpectedEnd
  | some _ =>
    let expression ← required inner .lowest
    if expression.isVoid then
      Reading.skip
      pure (.leave [])
    else
      pure (.again () (expression :: ·))

theorem blockRest_eq_passes (limit : Nat) (state : Unit) :
    blockRest inner limit = passes (blockPass inner) (fun _ => pure []) limit state := by
  induction limit generalizing state with
  | zero => rfl
  | succ limit ih =>
      rw [blockRest, passes, blockPass, bind_assoc]
      congr 1
      funext answer
      cases answer with
      | none => rfl
      | some token =>
          dsimp only
          rw [bind_assoc]
          congr 1
          funext expression
          cases expression.isVoid with
          | true => rfl
          | false =>
              rw [ih ()]
              rfl

theorem Faithful.blockPass (faithful : Faithful inner size) :
    Productive size (blockPass inner) := by
  intro _
  apply Advances.peek
  intro seen
  cases seen with
  | none => exact advances_failAtLast .unexpectedEnd
  | some token =>
      apply faithful.advances_required
      intro tree solid
      rw [if_pos solid]
      exact advances_skip

def argumentPass (inner : Inner) (standing : ArgumentPlace) :
    Reading (Pass ArgumentPlace (List Expression)) := do
  match argumentTurn standing (← Reading.peek) with
  | .ended => Reading.failAtLast .unexpectedEnd
  | .close => do
    Reading.skip
    pure (.leave [])
  | .comma => do
    Reading.skip
    pure (.again .afterComma id)
  | .argument => do
    let argument ← required inner .lowest
    pure (.again .afterArgument (argument :: ·))
  | .refuse failure => .fail failure

theorem arguments_eq_passes (limit : Nat) (standing : ArgumentPlace) :
    arguments inner limit standing =
      passes (argumentPass inner) (fun _ => pure []) limit standing := by
  induction limit generalizing standing with
  | zero => rfl
  | succ limit ih =>
      rw [arguments_succ, passes, argumentPass, bind_assoc]
      congr 1
      funext answer
      cases argumentTurn standing answer with
      | ended => rfl
      | refuse failure => rfl
      | close => rfl
      | comma => simp only [bind_assoc, pure_bind, ih, id, bind_pure]
      | argument => simp only [bind_assoc, pure_bind, ih]

section Arguments

variable {σ : Type} [Source σ TokenItem] [LawfulSource σ] {parser after : Parser σ}
  {standing next : ArgumentPlace} {around : List Expression → List Expression}

inductive ArgumentStep (inner : Inner) (parser after : Parser σ) :
    ArgumentPlace → (List Expression → List Expression) → Prop where
  | comma (taken : after.pending.length < parser.pending.length) :
      ArgumentStep inner parser after .afterComma id
  | argument {value : Expression} {middle : Parser σ} (kept : middle.pending = parser.pending)
      (found : (Grammar.required inner .lowest).run middle = (.ok value, after)) :
      ArgumentStep inner parser after .afterArgument (value :: ·)

theorem argumentPass_step
    (ran : (argumentPass inner standing).run parser = (.ok (.again next around), after)) :
    ArgumentStep inner parser after next around := by
  obtain ⟨seen, middle, kept, behind⟩ := run_peek_ok ran
  cases turn : argumentTurn standing seen with
  | ended | refuse =>
      rw [turn] at behind
      cases behind
  | close =>
      rw [turn] at behind
      obtain ⟨_, _, _, left⟩ := run_bind_ok behind
      cases left
  | comma =>
      rw [turn] at behind
      have taken := run_skip_then_length behind
      obtain ⟨_, _, _, left⟩ := run_bind_ok behind
      cases left
      exact .comma (kept ▸ taken)
  | argument =>
      rw [turn] at behind
      obtain ⟨value, _, found, left⟩ := run_bind_ok behind
      cases left
      exact .argument kept found

theorem argumentPass_refuses {place : Location} {later : List TokenItem}
    (ahead : parser.pending = .ok ⟨.mark .rightBrace, place⟩ :: later) :
    (argumentPass inner .afterArgument).run parser =
      (.error ⟨place, .unexpectedToken (.mark .rightBrace)⟩, parser.peek.2) := by
  rw [argumentPass, run_peek_token ahead]
  rfl

end Arguments

/-! ### Programs -/

def programPass (inner : Inner) (_ : Unit) : Reading (Pass Unit (List Expression)) := do
  match programTurn (← inner .lowest) with
  | .finish => pure (.leave [])
  | .stray place => .fail ⟨place, .unexpectedToken (.mark .rightBrace)⟩
  | .element tree => pure (.again () (tree :: ·))

theorem programForm_eq_passes {limit : Nat} (count : Nat) (state : Unit) :
    programForm limit count =
      passes (programPass (expression limit)) (fun _ => pure []) count state := by
  induction count generalizing state with
  | zero => rfl
  | succ count ih =>
      rw [programForm, passes, programPass, bind_assoc]
      congr 1
      funext answer
      cases programTurn answer with
      | finish => rfl
      | stray place => rfl
      | element tree =>
          rw [ih ()]
          rfl

theorem Faithful.programPass (faithful : Faithful inner size) :
    Productive size (programPass inner) := by
  intro _
  constructor
  intro σ _ _ parser after next around shorter ran
  obtain ⟨answer, behind, found, decided⟩ := run_bind_ok ran
  cases turn : programTurn answer with
  | finish =>
      rw [turn] at decided
      cases decided
  | stray place =>
      rw [turn] at decided
      cases decided
  | element tree =>
      rw [turn] at decided
      cases decided
      obtain ⟨rfl, solid⟩ := programTurn_element turn
      exact ((faithful shorter).mp (accepts_of_run found)).shorter solid

end Grammar

end Shading
