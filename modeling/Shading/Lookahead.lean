import Shading.Cursor
import Shading.Source

/-!
A source with one item on hold.

Looking pulls an item only when none is on hold, and taking gives out the held
item first. The count and the last item given out are kept for whoever has to
say how far reading went.
-/

namespace Shading

/-- A source together with the item that was looked at but not taken. -/
structure Lookahead (σ α : Type) where
  source : σ
  held : Option α
  taken : Nat
  last : Option α

namespace Lookahead

variable {σ α : Type}

def ofSource (source : σ) : Lookahead σ α := ⟨source, none, 0, none⟩

/-- How many items the source has given so far: those taken and the one on hold. -/
def pulled (lookahead : Lookahead σ α) : Nat :=
  lookahead.taken + lookahead.held.toList.length

variable [Source σ α]

def peek (lookahead : Lookahead σ α) : Option α × Lookahead σ α :=
  match lookahead.held with
  | some item => (some item, lookahead)
  | none =>
    let (item, source) := Source.pull lookahead.source
    (item, { lookahead with source := source, held := item })

def next (lookahead : Lookahead σ α) : Option α × Lookahead σ α :=
  match lookahead.held with
  | some item =>
    (some item, { lookahead with held := none, taken := lookahead.taken + 1, last := some item })
  | none =>
    match Source.pull lookahead.source with
    | (none, source) => (none, { lookahead with source := source })
    | (some item, source) =>
      (some item,
        { lookahead with source := source, taken := lookahead.taken + 1, last := some item })

def remaining (lookahead : Lookahead σ α) : Nat :=
  lookahead.held.toList.length + Source.size lookahead.source

instance : Cursor (Lookahead σ α) α where
  peek := peek
  next := next
  remaining := remaining

end Lookahead

end Shading
