import Shading.Proofs.Trail

/-!
Readings that do not look at places.

Tokens tell their places, and readings put them into trees and errors; but nothing
is decided by them. `Moved` says so of two readings: they ask alike, and where the
tokens stand elsewhere, so does what they answer and what they complain about.
-/

namespace Shading

/-! ### Moving places -/

def Token.relocate (move : Location → Location) (token : Token) : Token :=
  ⟨token.kind, move token.location⟩

def SyntaxError.relocate (move : Location → Location) (failure : SyntaxError) : SyntaxError :=
  ⟨move failure.location, failure.fault⟩

def relocateItem (move : Location → Location) : TokenItem → TokenItem
  | .ok token => .ok (token.relocate move)
  | .error failure => .error (failure.relocate move)

def Trail.relocate (move : Location → Location) (trail : Trail) : Trail :=
  ⟨trail.taken.map (relocateItem move), trail.ahead.map (Option.map (relocateItem move))⟩

def Halt.relocate (move : Location → Location) : Halt → Halt
  | own failure => own (failure.relocate move)
  | atLast fault => atLast fault
  | item failure => item (failure.relocate move)

variable {move : Location → Location}

theorem Trail.Allows.relocate {trail : Trail} {answer : Option TokenItem}
    (allowed : trail.Allows answer) :
    (trail.relocate move).Allows (answer.map (relocateItem move)) := by
  rcases allowed with unseen | same
  · left
    unfold Trail.relocate
    rw [unseen]
    rfl
  · right
    unfold Trail.relocate
    rw [same]
    rfl

theorem Trail.relocate_take (trail : Trail) (item : TokenItem) :
    (trail.take item).relocate move = (trail.relocate move).take (relocateItem move item) := by
  unfold Trail.relocate Trail.take
  rw [List.map_append, List.map_singleton]
  rfl

theorem Trail.relocate_shown (trail : Trail) :
    (trail.relocate move).shown = trail.shown.map (relocateItem move) := by
  obtain ⟨taken, ahead⟩ := trail
  unfold Trail.shown Trail.relocate
  rw [List.map_append]
  rcases ahead with _ | _ | item <;> rfl

namespace Reading

variable {α β γ δ : Type} {answers : α → β} {others : γ → δ}

/-- A reading of tokens, and one of the same tokens elsewhere, whose answer is got
from that of the first. -/
inductive Moved (move : Location → Location) (answers : α → β) :
    Reading α → Reading β → Prop where
  | done {value : α} : Moved move answers (.done value) (.done (answers value))
  | fail {failure : SyntaxError} :
      Moved move answers (.fail failure) (.fail (failure.relocate move))
  | failAtLast {fault : Fault} : Moved move answers (.failAtLast fault) (.failAtLast fault)
  | look {next : Option Token → Reading α} {other : Option Token → Reading β}
      (following : ∀ answer, Moved move answers (next answer)
        (other (answer.map (Token.relocate move)))) :
      Moved move answers (.look next) (.look other)
  | take {next : Token → Reading α} {other : Token → Reading β}
      (following : ∀ token, Moved move answers (next token) (other (token.relocate move))) :
      Moved move answers (.take next) (.take other)

/-- Whatever a reading may explore, its companion explores elsewhere. -/
theorem Moved.explores {reading : Reading α} {other : Reading β} {trail after : Trail}
    {ending : Except Halt α} (moved : Moved move answers reading other)
    (explored : reading.Explores trail ending after) :
    other.Explores (trail.relocate move) ((ending.map answers).mapError (Halt.relocate move))
      (after.relocate move) := by
  induction explored generalizing other with
  | done =>
      cases moved
      exact .done
  | fail =>
      cases moved
      exact .fail
  | failAtLast =>
      cases moved
      exact .failAtLast
  | lookToken allowed _ ih =>
      cases moved with
      | look following => exact .lookToken allowed.relocate (ih (following _))
  | lookEnd allowed _ ih =>
      cases moved with
      | look following => exact .lookEnd allowed.relocate (ih (following none))
  | lookError allowed =>
      cases moved with
      | look following => exact .lookError allowed.relocate
  | takeToken allowed _ ih =>
      cases moved with
      | take following =>
          have explored := ih (following _)
          rw [Trail.relocate_take] at explored
          exact .takeToken allowed.relocate explored
  | takeEnd allowed =>
      cases moved with
      | take following => exact .takeEnd allowed.relocate
  | takeError allowed =>
      cases moved with
      | take following =>
          rw [Trail.relocate_take]
          exact .takeError allowed.relocate

/-! ### Steps -/

theorem Moved.bind {first : Reading α} {second : Reading β} {following : α → Reading γ}
    {companion : β → Reading δ} (moved : Moved move answers first second)
    (behind : ∀ value, Moved move others (following value) (companion (answers value))) :
    Moved move others (first >>= following) (second >>= companion) := by
  change Moved move others (first.andThen following) (second.andThen companion)
  induction moved with
  | done => exact behind _
  | fail => exact .fail
  | failAtLast => exact .failAtLast
  | look _ ih => exact .look ih
  | take _ ih => exact .take ih

theorem Moved.peek {following : Option Token → Reading α}
    {companion : Option Token → Reading β}
    (behind : ∀ answer, Moved move answers (following answer)
      (companion (answer.map (Token.relocate move)))) :
    Moved move answers (Reading.peek >>= following) (Reading.peek >>= companion) :=
  .look behind

theorem Moved.skip {following : Unit → Reading α} {companion : Unit → Reading β}
    (behind : Moved move answers (following ()) (companion ())) :
    Moved move answers (Reading.skip >>= following) (Reading.skip >>= companion) :=
  .take fun _ => behind

theorem moved_next : Moved move (Token.relocate move) next next := .take fun _ => .done

theorem moved_unexpected (token : Token) :
    Moved move answers (unexpected token) (unexpected (token.relocate move)) := .fail

theorem moved_expect (kind : Token.Kind) :
    Moved move (Token.relocate move) (expect kind) (expect kind) := by
  apply moved_next.bind
  intro token
  have kept : (token.relocate move).kind = token.kind := rfl
  rw [kept]
  by_cases same : token.kind = kind
  · rw [if_pos same, if_pos same]
    exact .done
  · rw [if_neg same, if_neg same]
    exact moved_unexpected token

theorem moved_expectName :
    Moved move (fun named => (named.1, move named.2)) expectName expectName := by
  apply moved_next.bind
  intro token
  obtain ⟨kind, place⟩ := token
  cases kind with
  | name name => exact .done
  | _ => exact moved_unexpected _

end Reading

end Shading
