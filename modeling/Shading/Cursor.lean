/-!
Cursors: one item of lookahead over a sequence.

A cursor can look at its next item and take it. Everything that skips items is
built on these two, so a cursor that keeps books while taking keeps them while
skipping too.
-/

namespace Shading

/-- A state that shows its next item before giving it out. -/
class Cursor (κ : Type) (α : outParam Type) where
  peek : κ → Option α × κ
  next : κ → Option α × κ
  /-- A bound on the number of items still to come. -/
  remaining : κ → Nat

namespace Cursor

variable {κ α : Type} [Cursor κ α]

def skipOne (cursor : κ) : Bool × κ :=
  let (item, cursor) := next cursor
  (item.isSome, cursor)

/-- Take one item and hand it on together with whether there was one. -/
def nextThen {β : Type} (cursor : κ) (use : Bool → Option α → β) : β × κ :=
  let (item, cursor) := next cursor
  (use item.isSome item, cursor)

/-- Skip at most `limit` items, each of which the test accepts; the test passes a
state along. The answer is the state that the last test gave back. -/
def skipWhileWithin {τ : Type} (test : τ → α → Bool × τ) : Nat → τ → κ → τ × κ
  | 0, state, cursor => (state, cursor)
  | limit + 1, state, cursor =>
    match peek cursor with
    | (none, cursor) => (state, cursor)
    | (some item, cursor) =>
      match test state item with
      | (false, state) => (state, cursor)
      | (true, state) => skipWhileWithin test limit state (skipOne cursor).2

/-- Skip items as long as a test with a state accepts them. The first item that
the test rejects is not taken. -/
def skipWhileWith {τ : Type} (test : τ → α → Bool × τ) (state : τ) (cursor : κ) : τ × κ :=
  skipWhileWithin test (remaining cursor + 1) state cursor

def skipWhile (test : α → Bool) (cursor : κ) : κ :=
  (skipWhileWith (fun (_ : Unit) item => (test item, ())) () cursor).2

end Cursor

end Shading
