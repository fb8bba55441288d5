import Shading.Proofs.Requests

/-!
What a parser never loses.

A parser changes by looking and taking only. So whatever these two steps keep is kept by a
reading, by a program, and by requests in a row, however they are answered.
-/

namespace Shading

variable {σ : Type} [Source σ TokenItem] {parser : Parser σ}

structure Keeps (holds : Parser σ → Prop) : Prop where
  peek : ∀ {parser : Parser σ}, holds parser → holds parser.peek.2
  next : ∀ {parser : Parser σ}, holds parser → holds parser.next.2

namespace Keeps

variable {holds : Parser σ → Prop} (keeps : Keeps holds)

include keeps

theorem run {α : Type} (reading : Reading α) (begun : holds parser) :
    holds (reading.run parser).2 := by
  induction reading generalizing parser with
  | done value => exact begun
  | fail failure => exact begun
  | failAtLast fault => exact begun
  | look next ih =>
      have looked := keeps.peek begun
      rw [Reading.run]
      generalize parser.peek = answered at looked
      rcases answered with ⟨_ | ⟨failure | token⟩, behind⟩
      · exact ih none looked
      · exact looked
      · exact ih (some token) looked
  | take next ih =>
      have taken := keeps.next begun
      rw [Reading.run]
      generalize parser.next = answered at taken
      rcases answered with ⟨_ | ⟨failure | token⟩, behind⟩
      · exact taken
      · exact taken
      · exact ih token taken

theorem expression (bound : Precedence) (begun : holds parser) :
    holds (parser.expression bound).2 :=
  keeps.run _ begun

theorem programWithin {note : Expression → σ → σ}
    (noted : ∀ {parser : Parser σ} (tree : Expression), holds parser →
      holds (parser.noting note tree)) (limit : Nat) (begun : holds parser) :
    holds (Parser.programWithin note limit parser).2 := by
  induction limit generalizing parser with
  | zero => exact begun
  | succ limit ih =>
      have first := keeps.expression .lowest begun
      have step := Parser.programWithin_step note limit parser
      generalize Parser.programWithin note (limit + 1) parser = answered at step
      cases step with
      | failed parsed | ended parsed | stray parsed =>
          rw [parsed] at first
          exact first
      | @element tree after parsed solid =>
          rw [parsed] at first
          exact ih (noted tree first)

theorem program (begun : holds parser) : holds parser.program.2 := by
  have silent : ∀ {parser : Parser σ} (tree : Expression), holds parser →
      holds (parser.noting Parser.silent tree) := fun _ kept => kept
  exact keeps.programWithin silent (parser.remaining + 1) begun

theorem answer (request : Request) (begun : holds parser) : holds (parser.answer request).2 := by
  cases request with
  | expression bound => exact keeps.expression bound begun
  | program => exact keeps.program begun

theorem behind (requests : List Request) (begun : holds parser) :
    holds (parser.behind requests) := by
  induction requests generalizing parser with
  | nil => exact begun
  | cons request others ih => exact ih (keeps.answer request begun)

end Keeps

/-! ### How far a parser has read -/

namespace Lookahead

variable {σ α : Type} [Source σ α] (lookahead : Lookahead σ α)

theorem next_taken : lookahead.next.2.taken = lookahead.taken + lookahead.next.1.toList.length := by
  unfold next
  cases lookahead.held with
  | some item => rfl
  | none => rcases Source.pull lookahead.source with ⟨_ | item, rest⟩ <;> rfl

theorem next_last : lookahead.next.2.last = lookahead.next.1.or lookahead.last := by
  unfold next
  cases lookahead.held with
  | some item => rfl
  | none => rcases Source.pull lookahead.source with ⟨_ | item, rest⟩ <;> rfl

theorem peek_taken : lookahead.peek.2.taken = lookahead.taken := by
  unfold peek
  cases lookahead.held <;> rfl

theorem peek_last : lookahead.peek.2.last = lookahead.last := by
  unfold peek
  cases lookahead.held <;> rfl

end Lookahead

namespace Parser

variable {σ : Type} [Source σ TokenItem] {parser after : Parser σ} {items : List TokenItem}

/-- A parser that has taken the first of these items and has the others left. -/
structure Along (items : List TokenItem) (parser : Parser σ) : Prop where
  left : parser.pending = items.drop parser.taken
  within : parser.taken ≤ items.length
  last : parser.last = (items.take parser.taken).getLast?

theorem along_ofSource (source : σ) :
    Along (Source.items source) (Parser.ofSource source) :=
  ⟨rfl, Nat.zero_le _, rfl⟩

variable [LawfulSource σ]

theorem keeps_along (items : List TokenItem) :
    Keeps fun parser : Parser σ => Along items parser where
  peek := by
    intro parser along
    obtain ⟨left, within, last⟩ := along
    refine ⟨?_, ?_, ?_⟩
    · rw [Lookahead.peek_pending, Lookahead.peek_taken, left]
    · rw [Lookahead.peek_taken]
      exact within
    · rw [Lookahead.peek_last, Lookahead.peek_taken, last]
  next := by
    intro parser along
    obtain ⟨left, within, last⟩ := along
    have given := parser.next_fst
    rw [left, List.head?_drop] at given
    have taken := parser.next_taken
    have told := parser.next_last
    rw [given] at taken told
    cases ahead : items[parser.taken]? with
    | none =>
        rw [ahead] at taken told
        have same : parser.next.2.taken = parser.taken := taken
        refine ⟨?_, ?_, ?_⟩
        · rw [Lookahead.next_pending, left, List.tail_drop, same,
            List.drop_eq_nil_of_le (Nat.le_succ_of_le (List.getElem?_eq_none_iff.mp ahead)),
            List.drop_eq_nil_of_le (List.getElem?_eq_none_iff.mp ahead)]
        · rw [same]
          exact within
        · rw [same, told]
          exact last
    | some item =>
        rw [ahead] at taken told
        have same : parser.next.2.taken = parser.taken + 1 := taken
        have more := (List.getElem?_eq_some_iff.mp ahead).1
        refine ⟨?_, ?_, ?_⟩
        · rw [Lookahead.next_pending, left, List.tail_drop, same]
        · rw [same]
          exact more
        · rw [same, told, List.take_add_one, ahead, Option.toList_some, List.getLast?_concat]
          rfl

end Parser

end Shading
