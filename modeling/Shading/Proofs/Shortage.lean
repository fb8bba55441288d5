import Shading.Proofs.Acceptance
import Shading.Proofs.Blame

/-!
Readings that fail because the tokens end.

`Lacks` is to such failures what `Accepts` is to answers: it knows no lookahead and
no source, and every step of the reading library has one law here.
-/

namespace Shading

namespace Reading

variable {α β : Type} {input rest : List TokenItem}

/-- A reading fails on a list because the list ends. -/
def Lacks : Reading α → List TokenItem → Prop
  | .done _, _ => False
  | .fail failure, _ => failure.fault.isEnd = true
  | .failAtLast fault, _ => fault.isEnd = true
  | .look next, [] => (next none).Lacks []
  | .look next, .ok token :: later => (next (some token)).Lacks (.ok token :: later)
  | .look _, .error _ :: _ => False
  | .take _, [] => True
  | .take next, .ok token :: later => (next token).Lacks later
  | .take _, .error _ :: _ => False

/-- A reading of tokens that fails with an end fault lacks tokens. -/
theorem lacks_of_run {σ : Type} [Source σ TokenItem] [LawfulSource σ] {reading : Reading α}
    {parser after : Parser σ} {failure : SyntaxError} {tokens : List Token}
    (failed : reading.run parser = (.error failure, after))
    (isEnd : failure.fault.isEnd = true) (pending : parser.pending = tokens.map .ok) :
    reading.Lacks parser.pending := by
  induction reading generalizing parser tokens with
  | done value => cases failed
  | fail failure =>
      cases failed
      exact isEnd
  | failAtLast fault =>
      cases failed
      exact isEnd
  | look next ih =>
      have shown := parser.peek_fst
      have kept := parser.peek_pending
      rw [run] at failed
      rcases peeked : parser.peek with ⟨_ | ⟨found | token⟩, looked⟩
      · rw [peeked] at failed shown kept
        have following := ih none failed (kept.trans pending)
        have empty := List.head?_eq_none_iff.mp shown.symm
        rw [kept, empty] at following
        rw [empty]
        exact following
      · rw [peeked, pending] at shown
        cases tokens <;> cases shown
      · rw [peeked] at failed shown kept
        have following := ih (some token) failed (kept.trans pending)
        obtain ⟨later, split⟩ := List.head?_eq_some_iff.mp shown.symm
        rw [kept, split] at following
        rw [split]
        exact following
  | take next ih =>
      have given := parser.next_fst
      have left := parser.next_pending
      rw [run] at failed
      rcases advanced : parser.next with ⟨_ | ⟨found | token⟩, taken⟩
      · rw [advanced] at given
        rw [List.head?_eq_none_iff.mp given.symm]
        trivial
      · rw [advanced, pending] at given
        cases tokens <;> cases given
      · rw [advanced] at failed given left
        obtain ⟨later, split⟩ := List.head?_eq_some_iff.mp given.symm
        have tokensLeft : taken.pending = tokens.tail.map .ok := by
          rw [left, pending, List.map_tail]
        have following := ih token failed tokensLeft
        rw [left, split] at following
        rw [split]
        exact following

/-! ### One law for each step -/

theorem lacks_bind {reading : Reading α} {following : α → Reading β} :
    (reading >>= following).Lacks input ↔ reading.Lacks input ∨
      ∃ value middle, reading.Accepts input value middle ∧ (following value).Lacks middle := by
  change (reading.andThen following).Lacks input ↔ _
  induction reading generalizing input with
  | done value =>
      constructor
      · intro lacks
        exact .inr ⟨value, input, ⟨rfl, rfl⟩, lacks⟩
      · intro either
        rcases either with absurdity | ⟨_, _, ⟨rfl, rfl⟩, lacks⟩
        · exact absurdity.elim
        · exact lacks
  | fail failure => simp [andThen, Lacks, Accepts]
  | failAtLast fault => simp [andThen, Lacks, Accepts]
  | look next ih =>
      rcases input with _ | ⟨failure | token, later⟩
      · exact ih none
      · simp [andThen, Lacks, Accepts]
      · exact ih (some token)
  | take next ih =>
      rcases input with _ | ⟨failure | token, later⟩
      · simp [andThen, Lacks, Accepts]
      · simp [andThen, Lacks, Accepts]
      · exact ih token

theorem lacks_bind_pure {reading : Reading α} {answer : α → β} :
    (reading >>= fun value => pure (answer value)).Lacks input ↔ reading.Lacks input := by
  rw [lacks_bind]
  constructor
  · intro either
    rcases either with lacks | ⟨_, _, _, absurdity⟩
    · exact lacks
    · exact absurdity.elim
  · exact .inl

@[simp] theorem lacks_next : next.Lacks input ↔ input = [] := by
  rcases input with _ | ⟨failure | token, later⟩ <;> simp [next, Lacks]

@[simp] theorem lacks_expect {kind : Token.Kind} : (expect kind).Lacks input ↔ input = [] := by
  unfold expect
  rw [lacks_bind, lacks_next]
  constructor
  · rintro (ended | ⟨token, middle, _, lacks⟩)
    · exact ended
    · split at lacks <;> cases lacks
  · exact .inl

@[simp] theorem lacks_expectName : expectName.Lacks input ↔ input = [] := by
  unfold expectName
  rw [lacks_bind, lacks_next]
  constructor
  · rintro (ended | ⟨token, middle, _, lacks⟩)
    · exact ended
    · split at lacks <;> cases lacks
  · exact .inl

theorem lacks_peek_token {token : Token} {following : Option Token → Reading β} :
    (peek >>= following).Lacks (.ok token :: input) ↔
      (following (some token)).Lacks (.ok token :: input) := Iff.rfl

theorem lacks_skip_token {token : Token} {following : Unit → Reading β} :
    (skip >>= following).Lacks (.ok token :: input) ↔ (following ()).Lacks input := Iff.rfl

end Reading

end Shading
