import Shading.Proofs.Grammar.Fairness

/-!
How reading a program may end.

A program that is read is explored, and every exploration that fails shows its
reason. Either the tokens ended, or a token was refused that had been shown; then
nothing behind it was looked at, and every source that begins alike is refused alike.
-/

namespace Shading

open Grammar

variable {items others : List TokenItem} {limit : Nat} {base : Parser (List TokenItem)}

namespace Parser

theorem program_listed {σ : Type} [Source σ TokenItem] [LawfulSource σ] (parser : Parser σ) :
    Parser.program (Lookahead.listed parser) =
      (parser.program.1, Lookahead.listed parser.program.2) := by
  have enough : parser.pending.length < parser.pending.length + 1 := Nat.lt_succ_self _
  have enoughListed : (Lookahead.listed parser).pending.length < parser.pending.length + 1 := by
    rw [Lookahead.listed_pending]
    exact enough
  rw [program_eq_run enough enough, program_eq_run enoughListed enoughListed,
    Reading.run_listed]

def finished (base : Parser (List TokenItem)) (ending : Except Halt (List Expression))
    (after : Trail) (later : List TokenItem) :
    Except SyntaxError Program × Parser (List TokenItem) :=
  ((ending.mapError (Halt.failure (after.onto base later).lastPlace)).map Program.mk,
    after.onto base later)

theorem pending_onto_start : (Trail.start.onto base items).pending = items := by
  unfold Lookahead.pending
  exact Source.items_list items

theorem eq_onto_start {parser : Parser (List TokenItem)} (left : parser.pending = items)
    (free : parser.held = none) : parser = Trail.start.onto parser items := by
  obtain ⟨source, held, taken, last⟩ := parser
  cases free
  have whole : Source.items source = items := left
  rw [Source.items_list] at whole
  cases whole
  rfl

theorem program_explored (base : Parser (List TokenItem)) (enough : items.length < limit) :
    ∃ ending after later, (programForm limit limit).Explores .start ending after ∧
      after.Fits later ∧ items = after.shown ++ later ∧
        (Trail.start.onto base items).program = finished base ending after later ∧
          ∀ halt, ending = .error halt → halt.Justified after := by
  obtain ⟨ending, after, later, explored, fits, kept, ran⟩ :=
    Reading.run_explores (programForm limit limit) .start base
      (show Trail.start.Fits items from nofun)
  have split : items = after.shown ++ later := kept
  refine ⟨ending, after, later, explored, fits, split, ?_, ?_⟩
  · have within : (Trail.start.onto base items).pending.length < limit := by
      rw [pending_onto_start]
      exact enough
    rw [program_eq_run within within, ran]
    rfl
  · rintro halt rfl
    have fair : (programForm limit limit).Fair items.length .start Anything :=
      programForm_fair enough
    apply fair.justified explored
    rw [split, List.length_append]
    exact Nat.le_add_left_of_le (Nat.le_add_right _ _)

theorem program_of_explored {ending : Except Halt (List Expression)} {after : Trail}
    {later : List TokenItem} (explored : (programForm limit limit).Explores .start ending after)
    (fits : after.Fits later) (split : items = after.shown ++ later)
    (enough : items.length < limit) :
    (Trail.start.onto base items).program = finished base ending after later := by
  have within : (Trail.start.onto base items).pending.length < limit := by
    rw [pending_onto_start]
    exact enough
  rw [program_eq_run within within, explored.run base fits split]
  rfl

/-! ### Refusals -/

/-- Behind exactly these tokens, a program is given up with an error of its own. -/
def Refuses (limit : Nat) (shown : List Token) (failure : SyntaxError) : Prop :=
  ∃ after, (programForm limit limit).Explores .start (.error (.own failure)) after ∧
    after.ahead ≠ some none ∧ after.shown = shown.map .ok

variable {shown : List Token} {failure : SyntaxError} {later : List TokenItem}

theorem pulled_onto (after : Trail) (base : Parser (List TokenItem)) (later : List TokenItem) :
    (after.onto base later).pulled = base.taken + after.shown.length := by
  unfold Lookahead.pulled Trail.onto Trail.shown
  rw [List.length_append, Nat.add_assoc]

/-- What follows the tokens of a refusal is not looked at. -/
theorem Refuses.program (refused : Refuses limit shown failure)
    (split : items = shown.map Except.ok ++ later) (enough : items.length < limit) :
    (Trail.start.onto base items).program.1 = .error failure ∧
      (Trail.start.onto base items).program.2.pulled = base.taken + shown.length := by
  obtain ⟨after, explored, unended, same⟩ := refused
  rw [← same] at split
  rw [program_of_explored explored (fun ended => absurd ended unended) split enough]
  refine ⟨rfl, ?_⟩
  dsimp only [finished]
  rw [pulled_onto, same, List.length_map]

/-- A program fails because of an error among the items, or because the tokens ended,
which is told where the last one stands, or it is refused behind some of them. -/
theorem program_error_cases (enough : items.length < limit)
    (failed : (Trail.start.onto base items).program.1 = .error failure) :
    .error failure ∈ items ∨
    (∃ before last, items = List.map Except.ok (before ++ [last]) ∧ failure.fault.isEnd = true ∧
      failure.location = last.location ∧
        (Trail.start.onto base items).program.2.pulled = base.taken + items.length) ∨
    ∃ shown later, items = List.map Except.ok shown ++ later ∧ failure.fault.isEnd = false ∧
      failure.Blames shown ∧ Refuses limit shown failure := by
  obtain ⟨ending, after, later, explored, fits, split, ran, justified⟩ :=
    program_explored base enough
  rw [ran] at failed
  rcases ending with halt | trees
  · have told : halt.failure (after.onto base later).lastPlace = failure := Except.error.inj failed
    by_cases unmet : ∃ found, halt = .item found
    · obtain ⟨found, rfl⟩ := unmet
      cases told
      left
      rw [split]
      exact List.mem_append_left _ explored.item_shown
    · obtain ⟨shown, tokens⟩ := explored.tokens_shown ⟨[], rfl⟩
        (fun found same => unmet ⟨found, Except.error.inj same⟩)
      rcases (justified halt rfl).cases_tokens tokens (fun found same => unmet ⟨found, same⟩) with
        ⟨ended, before, last, fault, rfl, isEnd, tells⟩ | ⟨unended, refusal, rfl, notEnd, blames⟩
      · have nothing : later = [] := fits ended
        rw [tells] at told
        subst told nothing
        rw [List.append_nil] at split
        refine .inr (.inl ⟨before, last, split.trans tokens, isEnd, rfl, ?_⟩)
        rw [ran, split]
        exact pulled_onto after base []
      · cases told
        rw [tokens] at split
        exact .inr (.inr ⟨shown, later, split, notEnd, blames, after, explored, unended, tokens⟩)
  · cases failed

end Parser

end Shading
