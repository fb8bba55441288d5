import Shading.Proofs.Grammar.Limits
import Shading.Proofs.Trail

/-!
A whole program as one reading.

A parser starts anew at every expression of a program. With one limit above the
number of items for all of them, the program is a reading like any other form, and
what is proved of readings holds of it.
-/

namespace Shading

namespace Grammar

/-- What an answer to the search for the next expression means for a program. -/
inductive ProgramTurn where
  | finish
  | stray (place : Location)
  | element (tree : Expression)

def programTurn : Option Expression → ProgramTurn
  | none => .finish
  | some (.void place) => .stray place
  | some tree => .element tree

theorem programTurn_solid {tree : Expression} (solid : tree.isVoid = false) :
    programTurn (some tree) = .element tree := by
  cases tree with
  | void place => cases solid
  | _ => rfl

theorem programTurn_element {answer : Option Expression} {tree : Expression}
    (turn : programTurn answer = .element tree) : answer = some tree ∧ tree.isVoid = false := by
  rcases answer with _ | found
  · cases turn
  · cases found with
    | void place => cases turn
    | _ =>
        cases turn
        exact ⟨rfl, rfl⟩

theorem programTurn_stray {answer : Option Expression} {place : Location}
    (turn : programTurn answer = .stray place) : answer = some (.void place) := by
  rcases answer with _ | tree
  · cases turn
  · cases tree with
    | void found =>
        cases turn
        rfl
    | _ => cases turn

def programForm (limit : Nat) : Nat → Reading (List Expression)
  | 0 => pure []
  | count + 1 => do
    match programTurn (← expression limit .lowest) with
    | .finish => pure []
    | .stray place => .fail ⟨place, .unexpectedToken (.mark .rightBrace)⟩
    | .element tree => do
      let others ← programForm limit count
      pure (tree :: others)

end Grammar

namespace Parser

open Grammar

variable {σ : Type} [Source σ TokenItem] [LawfulSource σ] {parser after : Parser σ}
  {bound : Precedence} {limit : Nat}

theorem expression_eq_run (enough : parser.pending.length < limit) :
    parser.expression bound = (Grammar.expression limit bound).run parser := by
  have within := parser.pending_length_le
  exact (expression_alike (parser.remaining + 1) limit).same (by omega)

private theorem programWithin_eq_run {count other : Nat}
    (enough : parser.pending.length < limit) (within : parser.pending.length < count)
    (withinOther : parser.pending.length < other) :
    programWithin silent other parser = (programForm limit count).run parser := by
  induction other generalizing parser count with
  | zero => omega
  | succ other ih =>
  cases count with
  | zero => omega
  | succ count =>
      have first : parser.expression .lowest = (Grammar.expression limit .lowest).run parser :=
        expression_eq_run enough
      have stepped : (programForm limit (count + 1)).run parser =
          ((Grammar.expression limit .lowest).andThen _).run parser := rfl
      rw [Reading.run_andThen, ← first] at stepped
      rw [stepped]
      have step := programWithin_step silent other parser
      generalize programWithin silent (other + 1) parser = answered at step
      cases step with
      | failed parsed => rw [parsed]
      | ended parsed | stray parsed =>
          rw [parsed]
          rfl
      | @element tree behind parsed solid =>
          have progress := (reads_of_expression parsed).shorter solid
          have others : programWithin silent other (behind.noting silent tree) =
              (programForm limit count).run behind :=
            @ih behind count (by omega) (by omega) (by omega)
          rw [parsed, others]
          dsimp only
          rw [programTurn_solid solid]
          change _ = ((programForm limit count).andThen _).run behind
          rw [Reading.run_andThen]
          rcases (programForm limit count).run behind with ⟨failure | trees, stopped⟩ <;> rfl

/-- A program is one reading, with any limits above the number of items. -/
theorem program_eq_run {count : Nat} (enough : parser.pending.length < limit)
    (within : parser.pending.length < count) :
    parser.program =
      (((programForm limit count).run parser).1.map Program.mk,
        ((programForm limit count).run parser).2) := by
  rw [Parser.program, programNoting, programWithin_eq_run enough within (pending_within parser)]

end Parser

end Shading
