/-!
Sources of items.

A source is asked for one item at a time. It may answer that it has none, which
need not be its last word. Its size bounds the number of items it can still
give, so every loop over a source ends.
-/

namespace Shading

class Source (σ : Type) (α : outParam Type) where
  pull : σ → Option α × σ
  /-- A bound on the number of items still to come. -/
  size : σ → Nat

namespace Source

variable {σ α : Type} [Source σ α]

def drainWithin : Nat → σ → List α × σ
  | 0, source => ([], source)
  | limit + 1, source =>
    match pull source with
    | (none, source) => ([], source)
    | (some item, source) =>
      let (items, source) := drainWithin limit source
      (item :: items, source)

/-- Everything up to the first empty answer, and what is left of the source. -/
def drain (source : σ) : List α × σ :=
  drainWithin (size source + 1) source

def items (source : σ) : List α := (drain source).1

end Source

/-! ### Lists -/

instance {α : Type} : Source (List α) α where
  pull
    | [] => (none, [])
    | item :: rest => (some item, rest)
  size := List.length

/-! ### Feeds with gaps -/

/-- A prepared sequence of answers, some of them empty, with a count of how often
it was asked. Past its end it answers with nothing. -/
structure Feed (α : Type) where
  answers : List (Option α)
  pulls : Nat

def Feed.ofAnswers {α : Type} (answers : List (Option α)) : Feed α := ⟨answers, 0⟩

instance {α : Type} : Source (Feed α) α where
  pull feed := (feed.answers.headD none, ⟨feed.answers.tail, feed.pulls + 1⟩)
  size feed := feed.answers.length

/-! ### Items that may be errors -/

def untilError {ε α : Type} : List (Except ε α) → List α × Option ε
  | [] => ([], none)
  | .error failure :: _ => ([], some failure)
  | .ok item :: rest =>
    let (items, failure) := untilError rest
    (item :: items, failure)

def allOrError {ε α : Type} (items : List (Except ε α)) : Except ε (List α) :=
  match untilError items with
  | (good, none) => .ok good
  | (_, some failure) => .error failure

end Shading
