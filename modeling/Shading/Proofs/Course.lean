import Shading.Proofs.Pending
import Shading.Parser

/-!
The course of a reading over a list of tokens.

`course` carries out a reading where nothing but tokens can be met. It knows no source and no
counts, and of an error only the fault; of the lookahead it keeps whether the next token was
seen. Parsers over tokens run as it says.
-/

namespace Shading

/-- What a reading has left of a list of tokens, and whether it has seen the first of it. -/
structure Standing where
  seen : Bool
  rest : List Token

namespace Reading

variable {α β : Type}

/-- What a reading answers or complains about over a list of tokens, and where it stops. -/
def course : Reading α → Standing → Except Fault α × Standing
  | .done value, standing => (.ok value, standing)
  | .fail failure, standing => (.error failure.fault, standing)
  | .failAtLast fault, standing => (.error fault, standing)
  | .look next, ⟨_, []⟩ => (next none).course ⟨false, []⟩
  | .look next, ⟨_, token :: later⟩ => (next (some token)).course ⟨true, token :: later⟩
  | .take _, ⟨_, []⟩ => (.error .unexpectedEnd, ⟨false, []⟩)
  | .take next, ⟨_, token :: later⟩ => (next token).course ⟨false, later⟩

theorem course_bind (first : Reading α) (following : α → Reading β) (standing : Standing) :
    (first >>= following).course standing =
      match first.course standing with
      | (.ok value, behind) => (following value).course behind
      | (.error fault, behind) => (.error fault, behind) := by
  change (first.andThen following).course standing = _
  induction first generalizing standing with
  | done value => rfl
  | fail failure => rfl
  | failAtLast fault => rfl
  | look next ih =>
      obtain ⟨seen, _ | ⟨token, later⟩⟩ := standing
      · exact ih none _
      · exact ih (some token) _
  | take next ih =>
      obtain ⟨seen, _ | ⟨token, later⟩⟩ := standing
      · rfl
      · exact ih token _

theorem course_suffix (reading : Reading α) (standing : Standing) :
    (reading.course standing).2.rest <:+ standing.rest := by
  induction reading generalizing standing with
  | done value => exact List.suffix_rfl
  | fail failure => exact List.suffix_rfl
  | failAtLast fault => exact List.suffix_rfl
  | look next ih =>
      obtain ⟨seen, _ | ⟨token, later⟩⟩ := standing
      · exact ih none _
      · exact ih (some token) _
  | take next ih =>
      obtain ⟨seen, _ | ⟨token, later⟩⟩ := standing
      · exact List.suffix_rfl
      · exact (ih token _).trans (List.suffix_cons token later)

end Reading

/-! ### Parsers -/

section Run

variable {σ α : Type} [Source σ TokenItem] [LawfulSource σ] {parser : Parser σ}
  {standing : Standing}

structure Standing.Of (standing : Standing) (parser : Parser σ) : Prop where
  left : parser.pending = standing.rest.map .ok
  unheld : standing.seen = false → parser.held = none

theorem Standing.of_list (tokens : List Token) (seen : Bool) :
    Standing.Of ⟨seen, tokens⟩ (Parser.ofSource (tokens.map Except.ok : List TokenItem)) :=
  ⟨Source.items_list _, fun _ => rfl⟩

/-- A parser runs over its tokens. -/
theorem Reading.run_course (reading : Reading α) (stands : standing.Of parser) :
    (reading.run parser).1.mapError SyntaxError.fault = (reading.course standing).1 ∧
      (reading.course standing).2.Of (reading.run parser).2 := by
  obtain ⟨seen, tokens⟩ := standing
  obtain ⟨left, unheld⟩ := stands
  induction reading generalizing parser seen tokens with
  | done value => exact ⟨rfl, left, unheld⟩
  | fail failure => exact ⟨rfl, left, unheld⟩
  | failAtLast fault => exact ⟨rfl, left, unheld⟩
  | look next ih =>
      have shown := parser.peek_fst
      have kept := parser.peek_pending
      have held := parser.peek_held
      rw [run]
      rcases peeked : parser.peek with ⟨answer, looked⟩
      rw [peeked] at shown kept held
      rw [left] at shown kept
      cases tokens with
      | nil =>
          cases shown
          exact ih none false [] kept fun _ => held
      | cons token later =>
          cases shown
          exact ih (some token) true (token :: later) kept (by simp)
  | take next ih =>
      have given := parser.next_fst
      have behind := parser.next_pending
      have free := parser.next_held
      rw [run]
      rcases taken : parser.next with ⟨answer, after⟩
      rw [taken] at given behind free
      rw [left] at given behind
      cases tokens with
      | nil =>
          cases given
          exact ⟨rfl, behind, fun _ => free⟩
      | cons token later =>
          cases given
          exact ih token false later behind fun _ => free

end Run

end Shading
