import Shading.Lookahead
import Shading.SyntaxError

/-!
Parsing procedures as requests to a sequence of tokens.

A reading is finished, has failed, or makes one of two requests: to look at the
next token, or to take it. It fails at a place of its own, or at the place of
the token that was taken last, which it never learns otherwise. What the
sequence is and where it comes from is not its concern, so a law about sequences
needs one proof for all readings. Errors among the items never reach a reading:
looking at one or taking one ends it.
-/

namespace Shading

/-- A parsing procedure that answers with an `α`. -/
inductive Reading (α : Type) where
  | done (value : α)
  | fail (failure : SyntaxError)
  /-- Failed at the place of the token taken last. -/
  | failAtLast (fault : Fault)
  /-- Look at the next token, which may be the end. -/
  | look (next : Option Token → Reading α)
  /-- Take the next token; at the end this fails. -/
  | take (next : Token → Reading α)

namespace Reading

variable {α β : Type}

def andThen : Reading α → (α → Reading β) → Reading β
  | done value, following => following value
  | fail failure, _ => fail failure
  | failAtLast fault, _ => failAtLast fault
  | look next, following => look fun token => (next token).andThen following
  | take next, following => take fun token => (next token).andThen following

instance : Monad Reading where
  pure := done
  bind := andThen

theorem andThen_done (reading : Reading α) : reading.andThen done = reading := by
  induction reading with
  | done value => rfl
  | fail failure => rfl
  | failAtLast fault => rfl
  | look next ih => exact congrArg look (funext ih)
  | take next ih => exact congrArg take (funext ih)

theorem andThen_assoc {γ : Type} (reading : Reading α) (second : α → Reading β)
    (third : β → Reading γ) :
    (reading.andThen second).andThen third =
      reading.andThen fun value => (second value).andThen third := by
  induction reading with
  | done value => rfl
  | fail failure => rfl
  | failAtLast fault => rfl
  | look next ih => exact congrArg look (funext ih)
  | take next ih => exact congrArg take (funext ih)

instance : LawfulMonad Reading :=
  LawfulMonad.mk' Reading
    (fun reading => andThen_done reading)
    (fun _ _ => rfl)
    (fun reading second third => andThen_assoc reading second third)

/-! ### Single steps -/

def peek : Reading (Option Token) := look done

def next : Reading Token := take done

def skip : Reading Unit := take fun _ => done ()

def unexpected (token : Token) : Reading α :=
  fail ⟨token.location, .unexpectedToken token.kind⟩

def expect (kind : Token.Kind) : Reading Token := do
  let token ← next
  if token.kind = kind then pure token else unexpected token

def expectName : Reading (String × Location) := do
  let token ← next
  match token.kind with
  | .name name => pure (name, token.location)
  | _ => unexpected token

end Reading

/-! ### Carrying out a reading -/

abbrev TokenItem := Except SyntaxError Token

abbrev Parser (σ : Type) := Lookahead σ TokenItem

/-- The place of the token taken last; the beginning of the text if nothing was
taken yet or an error was. -/
def Parser.lastPlace {σ : Type} (parser : Parser σ) : Location :=
  match parser.last with
  | some (.ok token) => token.location
  | _ => Location.origin

/-- Carry out a reading. An error that is looked at stays on hold, an error that
is taken is gone, and either ends the reading. -/
def Reading.run {σ α : Type} [Source σ TokenItem] :
    Reading α → Parser σ → Except SyntaxError α × Parser σ
  | .done value, parser => (.ok value, parser)
  | .fail failure, parser => (.error failure, parser)
  | .failAtLast fault, parser => (.error ⟨parser.lastPlace, fault⟩, parser)
  | .look next, parser =>
    match parser.peek with
    | (none, parser) => (next none).run parser
    | (some (.ok token), parser) => (next (some token)).run parser
    | (some (.error failure), parser) => (.error failure, parser)
  | .take next, parser =>
    match parser.next with
    | (none, parser) => (.error ⟨Parser.lastPlace parser, .unexpectedEnd⟩, parser)
    | (some (.ok token), parser) => (next token).run parser
    | (some (.error failure), parser) => (.error failure, parser)

/-- Carrying out two readings in a row carries out the first, and the second where
the first stopped. -/
theorem Reading.run_andThen {σ α β : Type} [Source σ TokenItem] (reading : Reading α)
    (following : α → Reading β) (parser : Parser σ) :
    (reading.andThen following).run parser =
      match reading.run parser with
      | (.ok value, parser) => (following value).run parser
      | (.error failure, parser) => (.error failure, parser) := by
  induction reading generalizing parser with
  | done value => rfl
  | fail failure => rfl
  | failAtLast fault => rfl
  | look next ih =>
      simp only [Reading.andThen, Reading.run]
      split
      · exact ih _ _
      · exact ih _ _
      · rfl
  | take next ih =>
      simp only [Reading.andThen, Reading.run]
      split
      · rfl
      · exact ih _ _
      · rfl

end Shading
