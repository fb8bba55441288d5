import Shading.Proofs.Grammar.Fidelity
import Shading.Proofs.Grammar.Nesting

/-!
Parsing goes on and comes to an end.

An expression takes a token, the empty one stands for a brace that is still ahead, and where
there is none nothing is left. So no loop needs more passes than there are items; nor are more
expressions read inside each other. No limit of the parser is ever what ends a reading. One pass
alone may be in vain: that over an empty argument, as in `f(}`, behind which the call is refused.
-/

namespace Shading

open Grammar Reading

/-! ### What an answer takes -/

theorem significant_eq_nil {tokens : List Token} :
    significant tokens = [] ↔ ∀ token ∈ tokens, token.kind = .mark .semicolon := by
  unfold significant
  rw [List.filter_eq_nil_iff, List.forall_mem_map]
  simp only [decide_eq_true_eq, Decidable.not_not]

theorem significant_ne_nil {tokens : List Token} :
    significant tokens ≠ [] ↔ ∃ token ∈ tokens, token.kind ≠ .mark .semicolon := by
  rw [Ne, significant_eq_nil]
  simp only [Classical.not_forall, exists_prop, Ne]

/-- What reading an expression takes. Semicolons stand in front of the end and of a brace,
which is on hold then; any other expression takes a further token. -/
def Parser.Progress {σ : Type} [Source σ TokenItem] (parser : Parser σ) :
    Except SyntaxError (Option Expression) × Parser σ → Prop
  | (.error _, _) => True
  | (.ok answer, after) =>
      ∃ consumed : List Token, parser.pending = consumed.map .ok ++ after.pending ∧
        match answer with
        | none => (∀ token ∈ consumed, token.kind = .mark .semicolon) ∧ after.pending = []
        | some (.void place) =>
            (∀ token ∈ consumed, token.kind = .mark .semicolon) ∧
              after.held = some (.ok ⟨.mark .rightBrace, place⟩)
        | some _ => ∃ token ∈ consumed, token.kind ≠ .mark .semicolon

theorem Parser.expression_progress {σ : Type} [Source σ TokenItem] [LawfulSource σ]
    (parser : Parser σ) (bound : Precedence) : parser.Progress (parser.expression bound) := by
  rcases parsed : parser.expression bound with ⟨failure | _ | tree, after⟩
  · trivial
  · obtain ⟨separators, ended⟩ :=
      (expression_accepts_none (pending_within parser)).mp (accepts_of_run parsed)
    obtain ⟨consumed, split, spelled⟩ := separators.takes
    exact ⟨consumed, by rw [ended]; exact split, significant_eq_nil.mp spelled, ended⟩
  · have derived := Parser.reads_of_expression parsed
    obtain ⟨consumed, split, spelled⟩ := derived.takes
    refine ⟨consumed, split, ?_⟩
    cases empty : tree.isVoid with
    | true =>
        obtain ⟨place, later, rfl, ahead⟩ := derived.brace_ahead empty
        have looked := Parser.looked_of_expression parsed
        unfold Looked at looked
        rw [ahead] at looked
        exact ⟨significant_eq_nil.mp spelled, looked⟩
    | false =>
        have taken := significant_ne_nil.mp (spelled ▸ derived.spelled_ne_nil empty)
        cases tree with
        | void place => cases empty
        | _ => exact taken

/-! ### Loops -/

namespace Grammar

variable {σ : Type} [Source σ TokenItem] [LawfulSource σ] {parser after : Parser σ}
  {standing next : ArgumentPlace} {around : List Expression → List Expression}

/-- A pass over arguments read the empty expression: at most semicolons were taken, the brace that
it stands for is on hold, and the next pass refuses the brace and takes nothing. -/
structure ReadsVoid (inner : Inner) (place : Location) (parser after : Parser σ)
    (next : ArgumentPlace) (around : List Expression → List Expression) : Prop where
  around : around = (.void place :: ·)
  taken : ∃ consumed : List Token, parser.pending = consumed.map .ok ++ after.pending ∧
    ∀ token ∈ consumed, token.kind = .mark .semicolon
  held : after.held = some (.ok ⟨.mark .rightBrace, place⟩)
  refused : (argumentPass inner next).run after =
    (.error ⟨place, .unexpectedToken (.mark .rightBrace)⟩, after)

theorem argumentPass_again {size : Nat} (shorter : parser.pending.length < size)
    (ran : (argumentPass (expression size) standing).run parser =
      (.ok (.again next around), after)) :
    after.pending.length < parser.pending.length ∨
      ∃ place, ReadsVoid (expression size) place parser after next around := by
  cases argumentPass_step ran with
  | comma taken => exact .inl taken
  | @argument value middle kept found =>
      rw [← kept] at shorter ⊢
      have derived := Faithful.reads_of_run (expression_faithful size) shorter found
      cases empty : value.isVoid with
      | false => exact .inl (derived.shorter empty)
      | true =>
          obtain ⟨place, later, rfl, ahead⟩ := derived.brace_ahead empty
          obtain ⟨consumed, split, spelled⟩ := derived.takes
          have looked : after.Looked :=
            ((required_endsLooking size).looked shorter found).looked
          have held : after.held = some (.ok ⟨.mark .rightBrace, place⟩) := by
            unfold Parser.Looked at looked
            rw [ahead] at looked
            exact looked
          -- The brace is on hold, so the look of the next pass changes nothing.
          have still : after.peek.2 = after := by
            unfold Lookahead.peek
            rw [held]
          have refused : (argumentPass (expression size) .afterArgument).run after = _ :=
            argumentPass_refuses ahead
          rw [still] at refused
          exact .inr ⟨place, rfl, ⟨consumed, kept ▸ split, significant_eq_nil.mp spelled⟩, held,
            refused⟩

theorem argumentPass_settles (size : Nat) (standing : ArgumentPlace) :
    Settles size (argumentPass (expression size)) standing := by
  constructor
  intro σ _ _ parser after next around shorter ran
  rcases argumentPass_again shorter ran with taken | ⟨place, empty⟩
  · exact .inl taken
  · have left : 0 < after.pending.length := by
      unfold Lookahead.pending
      rw [empty.held]
      exact Nat.succ_pos _
    exact .inr ⟨left, _, _, empty.refused⟩

/-- With fewer than `size` items left, the loop around arguments ends: each pass takes an item or
leaves the loop, or else it reads the empty expression, and the next pass fails. -/
structure ArgumentsEnd (size : Nat) : Prop where
  goesOn : ∀ {σ : Type} [Source σ TokenItem] [LawfulSource σ] {parser after : Parser σ}
    {standing next : ArgumentPlace} {around : List Expression → List Expression},
    parser.pending.length < size →
      (argumentPass (expression size) standing).run parser = (.ok (.again next around), after) →
        after.pending.length < parser.pending.length ∨
          ∃ place, ReadsVoid (expression size) place parser after next around
  same : Loops size (argumentPass (expression size)) (arguments (expression size))

/-- With fewer than `size` items left, each loop of the grammar takes an item with every pass or
is left, however many passes its limit allows; but for an empty argument. -/
structure LoopsEnd (size : Nat) : Prop where
  accesses : ∀ start, IsLoop size (accessPass (expression size) start)
    (accesses (expression size) start)
  chain : ∀ bound start, IsLoop size (chainPass (expression size) bound start)
    (chain (expression size) bound start)
  arguments : ArgumentsEnd size
  block : IsLoop size (blockPass (expression size)) fun limit _ => blockRest (expression size) limit
  arms : ∀ blockLimit, IsLoop size (armPass (expression size) blockLimit)
    fun limit _ => furtherArms (expression size) blockLimit limit
  program : IsLoop size (programPass (expression size)) fun limit _ => programForm size limit

end Grammar

theorem Grammar.loops_end (size : Nat) : LoopsEnd size where
  accesses := fun _ => accessPass_productive.isLoop accesses_eq_passes
  chain := fun _ _ => chainPass_productive.isLoop chain_eq_passes
  arguments :=
    ⟨argumentPass_again, loops_of_settles (argumentPass_settles size) arguments_eq_passes⟩
  block := (Faithful.blockPass (expression_faithful size)).isLoop blockRest_eq_passes
  arms := fun _ => armPass_productive.isLoop furtherArms_eq_passes
  program := (Faithful.programPass (expression_faithful size)).isLoop programForm_eq_passes

/-- Parsing goes on with every pass, but for one over an empty argument, and with every
expression that is read inside another one. -/
theorem parsing_progresses {σ : Type} [Source σ TokenItem] [LawfulSource σ] (parser : Parser σ) :
    (∀ bound, parser.Progress (parser.expression bound)) ∧
    (∀ size, LoopsEnd size) ∧
    ∀ floor limit, parser.pending.length < limit →
      let inner := nested floor limit (parser.pending.length + 1)
      (∀ bound, parser.expression bound = (inner bound).run parser) ∧
      ∀ beyond, parser.program =
        let (trees, after) :=
          (passes (programPass inner) beyond (parser.pending.length + 1) ()).run parser
        (trees.map Program.mk, after) := by
  refine ⟨parser.expression_progress, loops_end, fun floor limit within => ?_⟩
  have enough : parser.pending.length < parser.pending.length + 1 := Nat.lt_succ_self _
  exact ⟨fun bound => parser.expression_eq_nested floor within enough bound,
    fun beyond => parser.program_eq_nested floor beyond within enough enough⟩

def strayBrace : Parser (List TokenItem) :=
  .ofSource [.ok ⟨.mark .semicolon, ⟨0, 0⟩⟩, .ok ⟨.mark .rightBrace, ⟨0, 1⟩⟩]

/-- In front of a brace only the semicolon is taken, and three expressions inside each other
would be enough. -/
theorem parsing_progresses_of_brace :
    (strayBrace.expression .lowest).1 = .ok (some (.void ⟨0, 1⟩)) ∧
    (∃ consumed : List Token,
      strayBrace.pending = consumed.map .ok ++ (strayBrace.expression .lowest).2.pending ∧
      (∀ token ∈ consumed, token.kind = .mark .semicolon) ∧
        (strayBrace.expression .lowest).2.held = some (.ok ⟨.mark .rightBrace, ⟨0, 1⟩⟩)) ∧
    strayBrace.pending.length < 3 ∧
      ∀ floor, strayBrace.expression .lowest = (nested floor 3 3 .lowest).run strayBrace :=
  have within : strayBrace.pending.length < 3 := by decide
  have progress := parsing_progresses strayBrace
  ⟨rfl, progress.1 .lowest, within, fun floor => (progress.2.2 floor 3 within).1 .lowest⟩

def openedCall : Parser (List TokenItem) :=
  (Parser.ofSource [.ok ⟨.name "f", ⟨0, 0⟩⟩, .ok ⟨.mark .leftParenthesis, ⟨0, 1⟩⟩,
    .ok ⟨.mark .rightBrace, ⟨0, 2⟩⟩]).next.2.next.2

/-- The loop around arguments makes a pass that takes nothing: it reads the empty expression as
the first argument of `f(}`. The brace is refused in the next pass. -/
theorem argument_in_vain :
    (∀ inner limit standing, arguments inner limit standing =
      passes (argumentPass inner) (fun _ => pure []) limit standing) ∧
    (argumentPass (expression 4) .atFirst).run openedCall =
      (.ok (.again .afterArgument (.void ⟨0, 2⟩ :: ·)), openedCall.peek.2) ∧
    openedCall.peek.2.taken = openedCall.taken ∧ openedCall.peek.2.pending = openedCall.pending ∧
    ¬ Productive 4 (argumentPass (expression 4)) ∧
    parse "f(\x7d" = .error ⟨⟨0, 2⟩, .unexpectedToken (.mark .rightBrace)⟩ := by
  have stalls : (argumentPass (expression 4) .atFirst).run openedCall =
      (.ok (.again .afterArgument (.void ⟨0, 2⟩ :: ·)), openedCall.peek.2) := rfl
  refine ⟨fun _ => arguments_eq_passes, stalls, rfl, rfl, fun productive => ?_, rfl⟩
  have fewer := (productive .atFirst).shorter (by decide) stalls
  exact Nat.lt_irrefl _ fewer

end Shading
