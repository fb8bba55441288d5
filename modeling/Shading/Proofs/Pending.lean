import Shading.Lookahead

/-!
Sources and lookaheads as lists.

A source whose size is honest and whose end is final is as good as the list of
its items, and a lookahead over it as good as the list of the items still to
come. Looking and taking are stated through that list, so nothing behind this
module depends on where items come from or on whether one is on hold.
-/

namespace Shading

/-- A source whose size drops with every item and which stays empty once it is. -/
class LawfulSource (σ : Type) {α : outParam Type} [Source σ α] : Prop where
  size_lt : ∀ {source rest : σ} {item : α},
    Source.pull source = (some item, rest) → Source.size rest < Source.size source
  end_final : ∀ {source rest : σ},
    Source.pull source = (none, rest) → (Source.pull rest).1 = none

namespace Source

variable {σ α : Type} [Source σ α]

theorem drain_of_pull_none {source rest : σ} (pulled : pull source = (none, rest)) :
    drain source = ([], rest) := by
  unfold drain drainWithin
  rw [pulled]

theorem items_of_pull_none {source : σ} (pulled : (pull source).1 = none) :
    items source = [] := by
  unfold items drain drainWithin
  split
  · rfl
  · rename_i found
    rw [found] at pulled
    cases pulled

variable [LawfulSource σ]

private theorem drainWithin_eq (source : σ) (limit other : Nat)
    (enough : size source < limit) (otherEnough : size source < other) :
    drainWithin limit source = drainWithin other source := by
  induction limit generalizing source other with
  | zero => omega
  | succ limit ih =>
      cases other with
      | zero => omega
      | succ other =>
          unfold drainWithin
          split
          · rfl
          · rename_i item rest found
            have smaller := LawfulSource.size_lt found
            rw [ih rest other (by omega) (by omega)]

theorem drain_of_pull_some {source rest : σ} {item : α}
    (pulled : pull source = (some item, rest)) :
    drain source = (item :: (drain rest).1, (drain rest).2) := by
  have smaller := LawfulSource.size_lt pulled
  unfold drain
  rw [drainWithin, pulled]
  dsimp only
  rw [drainWithin_eq rest (size source) (size rest + 1) smaller (by omega)]

theorem items_of_pull_some {source rest : σ} {item : α}
    (pulled : pull source = (some item, rest)) :
    items source = item :: items rest :=
  congrArg Prod.fst (drain_of_pull_some pulled)

theorem items_length_le (source : σ) : (items source).length ≤ size source := by
  generalize measured : size source = bound
  induction bound using Nat.strongRecOn generalizing source with
  | ind bound ih =>
      cases pulled : pull source with
      | mk answer rest =>
          cases answer with
          | none =>
              rw [items_of_pull_none (by rw [pulled])]
              exact Nat.zero_le bound
          | some item =>
              have smaller := LawfulSource.size_lt pulled
              have below := ih (size rest) (by omega) rest rfl
              rw [items_of_pull_some pulled, List.length_cons]
              omega

/-- If one source answers as another with every item changed, its items are those of
the other, changed. -/
theorem items_map {τ β : Type} [Source τ β] [LawfulSource τ] {states : σ → τ} {change : α → β}
    (answers : ∀ source, pull (states source) =
      ((pull source).1.map change, states (pull source).2)) (source : σ) :
    items (states source) = (items source).map change := by
  generalize measured : size source = bound
  induction bound using Nat.strongRecOn generalizing source with
  | ind bound ih =>
      have answered := answers source
      rcases pulled : pull source with ⟨_ | item, rest⟩
      · rw [pulled] at answered
        have empty : items source = [] := items_of_pull_none (by rw [pulled])
        have emptyChanged : items (states source) = [] := items_of_pull_none (by rw [answered]; rfl)
        rw [empty, emptyChanged]
        rfl
      · rw [pulled] at answered
        have smaller := LawfulSource.size_lt pulled
        rw [items_of_pull_some pulled, items_of_pull_some answered,
          ih (size rest) (by omega) rest rfl]
        rfl

end Source

/-! ### Lists as sources -/

instance {α : Type} : LawfulSource (List α) where
  size_lt := by
    intro source rest item pulled
    cases source with
    | nil => cases pulled
    | cons head tail =>
        cases pulled
        exact Nat.lt_succ_self _
  end_final := by
    intro source rest pulled
    cases source with
    | nil => cases pulled; rfl
    | cons head tail => cases pulled

@[simp] theorem Source.items_list {α : Type} (list : List α) : Source.items list = list := by
  induction list with
  | nil => rfl
  | cons head tail ih =>
      have pulled : Source.pull (head :: tail) = (some head, tail) := rfl
      rw [Source.items_of_pull_some pulled, ih]

/-! ### What a lookahead has still to give -/

namespace Lookahead

variable {σ α : Type} [Source σ α]

/-- The items still to come: the one on hold, and those of the source. -/
def pending (lookahead : Lookahead σ α) : List α :=
  lookahead.held.toList ++ Source.items lookahead.source

@[simp] theorem pending_ofSource (source : σ) :
    (ofSource source : Lookahead σ α).pending = Source.items source := rfl

/-- A lookahead over the list of its items, with the same item on hold. -/
def listed (lookahead : Lookahead σ α) : Lookahead (List α) α :=
  ⟨Source.items lookahead.source, lookahead.held, lookahead.taken, lookahead.last⟩

@[simp] theorem listed_pending (lookahead : Lookahead σ α) :
    lookahead.listed.pending = lookahead.pending := by
  unfold listed pending
  rw [Source.items_list]

theorem peek_held (lookahead : Lookahead σ α) : lookahead.peek.2.held = lookahead.peek.1 := by
  unfold peek
  cases held : lookahead.held with
  | some item => exact held
  | none => rfl

theorem next_held (lookahead : Lookahead σ α) : lookahead.next.2.held = none := by
  unfold next
  cases held : lookahead.held with
  | some item => rfl
  | none => rcases Source.pull lookahead.source with ⟨_ | item, rest⟩ <;> rfl

variable [LawfulSource σ]

@[simp] theorem peek_fst (lookahead : Lookahead σ α) :
    lookahead.peek.1 = lookahead.pending.head? := by
  unfold peek pending
  cases lookahead.held with
  | some item => rfl
  | none =>
      cases pulled : Source.pull lookahead.source with
      | mk answer rest =>
          cases answer with
          | none =>
              have empty : Source.items lookahead.source = [] :=
                Source.items_of_pull_none (by rw [pulled])
              simp [empty]
          | some item => simp [Source.items_of_pull_some pulled]

@[simp] theorem peek_pending (lookahead : Lookahead σ α) :
    lookahead.peek.2.pending = lookahead.pending := by
  unfold peek pending
  cases held : lookahead.held with
  | some item => simp [held]
  | none =>
      cases pulled : Source.pull lookahead.source with
      | mk answer rest =>
          cases answer with
          | none =>
              have empty : Source.items lookahead.source = [] :=
                Source.items_of_pull_none (by rw [pulled])
              have final := LawfulSource.end_final pulled
              simp [empty, Source.items_of_pull_none final]
          | some item => simp [Source.items_of_pull_some pulled]

@[simp] theorem next_fst (lookahead : Lookahead σ α) :
    lookahead.next.1 = lookahead.pending.head? := by
  unfold next pending
  cases lookahead.held with
  | some item => rfl
  | none =>
      cases pulled : Source.pull lookahead.source with
      | mk answer rest =>
          cases answer with
          | none =>
              have empty : Source.items lookahead.source = [] :=
                Source.items_of_pull_none (by rw [pulled])
              simp [empty]
          | some item => simp [Source.items_of_pull_some pulled]

@[simp] theorem next_pending (lookahead : Lookahead σ α) :
    lookahead.next.2.pending = lookahead.pending.tail := by
  unfold next pending
  cases lookahead.held with
  | some item => simp
  | none =>
      cases pulled : Source.pull lookahead.source with
      | mk answer rest =>
          cases answer with
          | none =>
              have empty : Source.items lookahead.source = [] :=
                Source.items_of_pull_none (by rw [pulled])
              have final := LawfulSource.end_final pulled
              simp [empty, Source.items_of_pull_none final]
          | some item => simp [Source.items_of_pull_some pulled]

theorem peek_listed (lookahead : Lookahead σ α) :
    lookahead.listed.peek = (lookahead.peek.1, lookahead.peek.2.listed) := by
  unfold peek listed
  dsimp only
  cases held : lookahead.held with
  | some item => rw [held]
  | none =>
      cases pulled : Source.pull lookahead.source with
      | mk answer rest =>
          cases answer with
          | none =>
              have final := LawfulSource.end_final pulled
              rw [Source.items_of_pull_none (by rw [pulled])]
              simp only [Source.items_of_pull_none final]
              rfl
          | some item =>
              rw [Source.items_of_pull_some pulled]
              rfl

theorem next_listed (lookahead : Lookahead σ α) :
    lookahead.listed.next = (lookahead.next.1, lookahead.next.2.listed) := by
  unfold next listed
  dsimp only
  cases held : lookahead.held with
  | some item => rfl
  | none =>
      cases pulled : Source.pull lookahead.source with
      | mk answer rest =>
          cases answer with
          | none =>
              have final := LawfulSource.end_final pulled
              rw [Source.items_of_pull_none (by rw [pulled])]
              simp only [Source.items_of_pull_none final]
              rfl
          | some item =>
              rw [Source.items_of_pull_some pulled]
              rfl

/-- The bound that a lookahead gives on the items still to come is right. -/
theorem pending_length_le (lookahead : Lookahead σ α) :
    lookahead.pending.length ≤ lookahead.remaining := by
  have bounded := Source.items_length_le lookahead.source
  unfold pending remaining
  rw [List.length_append]
  omega

end Lookahead

end Shading
