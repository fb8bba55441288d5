import Shading.Proofs.Pending
import Shading.Reading

/-!
What a reading takes from a list of items.

`Accepts` says which answers a reading can give on which list, and what it
leaves; it knows no lookahead, no counts and no source. Carrying out a reading
succeeds exactly as `Accepts` says, and every step of the reading library has
one law here, so that the forms of the grammar are never carried out in proofs.
-/

namespace Shading

namespace Reading

variable {α β : Type}

/-- A reading finishes on a list with an answer and leaves a rest. -/
def Accepts : Reading α → List TokenItem → α → List TokenItem → Prop
  | .done value, input, answer, rest => value = answer ∧ input = rest
  | .fail _, _, _, _ => False
  | .failAtLast _, _, _, _ => False
  | .look next, [], answer, rest => (next none).Accepts [] answer rest
  | .look next, .ok token :: later, answer, rest =>
    (next (some token)).Accepts (.ok token :: later) answer rest
  | .look _, .error _ :: _, _, _ => False
  | .take next, .ok token :: later, answer, rest => (next token).Accepts later answer rest
  | .take _, .error _ :: _, _, _ => False
  | .take _, [], _, _ => False

/-! ### Carrying out and accepting agree -/

section Run

variable {σ : Type} [Source σ TokenItem] [LawfulSource σ]

/-- A reading that is carried out to an answer accepts the items still to come. -/
theorem accepts_of_run {reading : Reading α} {parser after : Parser σ} {answer : α}
    (finished : reading.run parser = (.ok answer, after)) :
    reading.Accepts parser.pending answer after.pending := by
  induction reading generalizing parser with
  | done value => cases finished; exact ⟨rfl, rfl⟩
  | fail failure => cases finished
  | failAtLast fault => cases finished
  | look next ih =>
      have shown := parser.peek_fst
      have kept := parser.peek_pending
      simp only [run] at finished
      split at finished
      · rename_i looked peeked
        rw [peeked] at shown kept
        have empty := List.head?_eq_none_iff.mp shown.symm
        have following := ih none finished
        rw [kept, empty] at following
        rw [empty]
        exact following
      · rename_i token looked peeked
        rw [peeked] at shown kept
        obtain ⟨later, split⟩ := List.head?_eq_some_iff.mp shown.symm
        have following := ih (some token) finished
        rw [kept, split] at following
        rw [split]
        exact following
      · cases finished
  | take next ih =>
      have given := parser.next_fst
      have left := parser.next_pending
      simp only [run] at finished
      split at finished
      · cases finished
      · rename_i token taken advanced
        rw [advanced] at given left
        obtain ⟨later, split⟩ := List.head?_eq_some_iff.mp given.symm
        have following := ih token finished
        rw [left, split] at following
        rw [split]
        exact following
      · cases finished

/-- What a reading accepts, it reads when it is carried out. -/
theorem run_of_accepts {reading : Reading α} {parser : Parser σ} {answer : α}
    {rest : List TokenItem} (accepted : reading.Accepts parser.pending answer rest) :
    ∃ after, reading.run parser = (.ok answer, after) ∧ after.pending = rest := by
  induction reading generalizing parser with
  | done value =>
      obtain ⟨same, ended⟩ := accepted
      exact ⟨parser, by rw [same]; rfl, ended⟩
  | fail failure => cases accepted
  | failAtLast fault => cases accepted
  | look next ih =>
      have shown := parser.peek_fst
      have kept := parser.peek_pending
      simp only [run]
      split
      · rename_i looked peeked
        rw [peeked] at shown kept
        have empty := List.head?_eq_none_iff.mp shown.symm
        rw [empty] at accepted
        exact ih none (by rw [kept, empty]; exact accepted)
      · rename_i token looked peeked
        rw [peeked] at shown kept
        obtain ⟨later, split⟩ := List.head?_eq_some_iff.mp shown.symm
        rw [split] at accepted
        exact ih (some token) (by rw [kept, split]; exact accepted)
      · rename_i failure looked peeked
        rw [peeked] at shown
        obtain ⟨later, split⟩ := List.head?_eq_some_iff.mp shown.symm
        rw [split] at accepted
        cases accepted
  | take next ih =>
      have given := parser.next_fst
      have left := parser.next_pending
      simp only [run]
      split
      · rename_i taken advanced
        rw [advanced] at given
        rw [List.head?_eq_none_iff.mp given.symm] at accepted
        cases accepted
      · rename_i token taken advanced
        rw [advanced] at given left
        obtain ⟨later, split⟩ := List.head?_eq_some_iff.mp given.symm
        rw [split] at accepted
        exact ih token (by rw [left, split]; exact accepted)
      · rename_i failure taken advanced
        rw [advanced] at given
        obtain ⟨later, split⟩ := List.head?_eq_some_iff.mp given.symm
        rw [split] at accepted
        cases accepted

end Run

/-! ### One law for each step -/

section Steps

variable {input rest : List TokenItem}

@[simp] theorem accepts_bind {reading : Reading α} {following : α → Reading β} {answer : β} :
    (reading >>= following).Accepts input answer rest ↔
      ∃ value middle, reading.Accepts input value middle ∧
        (following value).Accepts middle answer rest := by
  change (reading.andThen following).Accepts input answer rest ↔ _
  induction reading generalizing input with
  | done value =>
      constructor
      · intro accepted
        exact ⟨value, input, ⟨rfl, rfl⟩, accepted⟩
      · rintro ⟨_, _, ⟨rfl, rfl⟩, accepted⟩
        exact accepted
  | fail failure => simp [andThen, Accepts]
  | failAtLast fault => simp [andThen, Accepts]
  | look next ih =>
      rcases input with _ | ⟨failure | token, later⟩
      · exact ih none
      · simp [andThen, Accepts]
      · exact ih (some token)
  | take next ih =>
      rcases input with _ | ⟨failure | token, later⟩
      · simp [andThen, Accepts]
      · simp [andThen, Accepts]
      · exact ih token

@[simp] theorem accepts_pure {value answer : α} :
    (pure value : Reading α).Accepts input answer rest ↔ value = answer ∧ input = rest := Iff.rfl

@[simp] theorem not_accepts_unexpected {token : Token} {answer : α} :
    ¬ (unexpected token : Reading α).Accepts input answer rest := id

@[simp] theorem accepts_next {answer : Token} :
    next.Accepts input answer rest ↔ input = .ok answer :: rest := by
  rcases input with _ | ⟨failure | token, later⟩ <;> simp [next, Accepts]

@[simp] theorem accepts_skip {answer : Unit} :
    skip.Accepts input answer rest ↔ ∃ token, input = .ok token :: rest := by
  rcases input with _ | ⟨failure | token, later⟩ <;> simp [skip, Accepts]

@[simp] theorem accepts_expect {kind : Token.Kind} {answer : Token} :
    (expect kind).Accepts input answer rest ↔ answer.kind = kind ∧ input = .ok answer :: rest := by
  unfold expect
  rw [accepts_bind]
  constructor
  · rintro ⟨token, middle, taken, judged⟩
    split at judged
    · rename_i same
      obtain ⟨rfl, rfl⟩ := judged
      exact ⟨same, accepts_next.mp taken⟩
    · cases judged
  · rintro ⟨same, split⟩
    refine ⟨answer, rest, accepts_next.mpr split, ?_⟩
    rw [if_pos same]
    exact ⟨rfl, rfl⟩

theorem expected_token {kind : Token.Kind} {answer : Token}
    (accepted : (expect kind).Accepts input answer rest) :
    ∃ place, answer = ⟨kind, place⟩ ∧ input = .ok ⟨kind, place⟩ :: rest := by
  obtain ⟨same, split⟩ := accepts_expect.mp accepted
  obtain ⟨found, place⟩ := answer
  cases same
  exact ⟨place, rfl, split⟩

@[simp] theorem accepts_expectName {answer : String × Location} :
    expectName.Accepts input answer rest ↔
      input = .ok ⟨.name answer.1, answer.2⟩ :: rest := by
  unfold expectName
  rw [accepts_bind]
  constructor
  · rintro ⟨⟨kind, place⟩, middle, taken, judged⟩
    split at judged
    · rename_i name same
      obtain ⟨rfl, rfl⟩ := judged
      rw [accepts_next.mp taken]
      exact congrArg (fun kind => Except.ok ⟨kind, place⟩ :: middle) same
    · cases judged
  · intro split
    exact ⟨⟨.name answer.1, answer.2⟩, rest, accepts_next.mpr split, rfl, rfl⟩

theorem accepts_peek_token {token : Token} {following : Option Token → Reading β} {answer : β} :
    (peek >>= following).Accepts (.ok token :: input) answer rest ↔
      (following (some token)).Accepts (.ok token :: input) answer rest := Iff.rfl

theorem accepts_skip_token {token : Token} {following : Unit → Reading β} {answer : β} :
    (skip >>= following).Accepts (.ok token :: input) answer rest ↔
      (following ()).Accepts input answer rest := Iff.rfl

theorem Accepts.suffix {reading : Reading α} {answer : α}
    (accepted : reading.Accepts input answer rest) : rest <:+ input := by
  induction reading generalizing input with
  | done value => exact accepted.2 ▸ List.suffix_rfl
  | fail failure => cases accepted
  | failAtLast fault => cases accepted
  | look next ih =>
      rcases input with _ | ⟨failure | token, later⟩
      · exact ih none accepted
      · cases accepted
      · exact ih (some token) accepted
  | take next ih =>
      rcases input with _ | ⟨failure | token, later⟩
      · cases accepted
      · cases accepted
      · exact (ih token accepted).trans (List.suffix_cons _ _)

end Steps

end Reading

end Shading
