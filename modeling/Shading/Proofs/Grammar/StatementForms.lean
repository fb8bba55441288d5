import Shading.Proofs.Grammar.OperandForms

/-!
Statements and the blocks in them accept what can be derived.
-/

namespace Shading.Grammar

open Reading

variable {inner : Inner} {size limit : Nat} {input rest : List TokenItem} {tree : Expression}

/-! ### Blocks -/

theorem blockRest_step {token : Token} {body : List Expression} :
    (blockRest inner (limit + 1)).Accepts (.ok token :: input) body rest ↔
      ∃ value middle, (required inner .lowest).Accepts (.ok token :: input) value middle ∧
        if value.isVoid = true then
          ∃ brace, middle = .ok brace :: rest ∧ body = []
        else
          ∃ others, (blockRest inner limit).Accepts middle others rest ∧
            body = value :: others := by
  rw [blockRest, accepts_peek_token, accepts_bind]
  constructor
  · rintro ⟨value, middle, first, judged⟩
    refine ⟨value, middle, first, ?_⟩
    split
    · rename_i empty
      rw [if_pos empty] at judged
      simp only [accepts_bind, accepts_skip, accepts_pure] at judged
      obtain ⟨_, _, ⟨brace, taken⟩, rfl, rfl⟩ := judged
      exact ⟨brace, taken, rfl⟩
    · rename_i solid
      rw [if_neg solid] at judged
      simp only [accepts_bind, accepts_pure] at judged
      obtain ⟨others, _, following, rfl, rfl⟩ := judged
      exact ⟨others, following, rfl⟩
  · rintro ⟨value, middle, first, judged⟩
    refine ⟨value, middle, first, ?_⟩
    split at judged
    · rename_i empty
      obtain ⟨brace, taken, rfl⟩ := judged
      rw [if_pos empty]
      simp only [accepts_bind, accepts_skip, accepts_pure]
      exact ⟨(), rest, ⟨brace, taken⟩, trivial, rfl⟩
    · rename_i solid
      obtain ⟨others, following, rfl⟩ := judged
      rw [if_neg solid]
      simp only [accepts_bind, accepts_pure]
      exact ⟨others, rest, following, rfl, rfl⟩

theorem Faithful.blockRest (faithful : Faithful inner size) {body : List Expression}
    (within : input.length < limit) (shorter : input.length < size) :
    (blockRest inner limit).Accepts input body rest ↔ ReadsBlock input body rest := by
  induction limit generalizing input body with
  | zero => omega
  | succ limit ih =>
      have nowhere {value : Expression} {behind : List TokenItem}
          (unread : ∀ token later, input ≠ .ok token :: later) :
          ¬ ReadsExpression .lowest input value behind := by
        intro derived
        cases derived <;> exact unread _ _ rfl
      rcases input with _ | ⟨failure | token, later⟩
      · constructor
        · intro accepted
          cases accepted
        · intro derived
          cases derived <;> exact absurd ‹_› (nowhere (by simp))
      · constructor
        · intro accepted
          cases accepted
        · intro derived
          cases derived <;> exact absurd ‹_› (nowhere (by simp))
      rw [blockRest_step]
      constructor
      · rintro ⟨value, middle, first, judged⟩
        have derived := (faithful.required shorter).mp first
        split at judged
        · rename_i empty
          obtain ⟨brace, rfl, rfl⟩ := judged
          obtain ⟨place, later, rfl, ahead⟩ := derived.brace_ahead empty
          cases ahead
          exact .close derived
        · rename_i solid
          obtain ⟨others, following, rfl⟩ := judged
          have progress := derived.shorter (Bool.eq_false_iff.mpr solid)
          exact .element derived (Bool.eq_false_iff.mpr solid)
            ((ih (by omega) (by omega)).mp following)
      · intro derived
        cases derived with
        | close following =>
            exact ⟨_, _, (faithful.required shorter).mpr following, _, rfl, rfl⟩
        | element following solid blocked =>
            have progress := following.shorter solid
            refine ⟨_, _, (faithful.required shorter).mpr following, ?_⟩
            rw [if_neg (by simp [solid])]
            exact ⟨_, (ih (by omega) (by omega)).mpr blocked, rfl⟩

theorem Faithful.block (faithful : Faithful inner size) {body : List Expression}
    (within : input.length ≤ limit) (shorter : input.length ≤ size) :
    (block inner limit).Accepts input body rest ↔
      ∃ bracePlace later, input = .ok ⟨.mark .leftBrace, bracePlace⟩ :: later ∧
        ReadsBlock later body rest := by
  unfold Grammar.block
  simp only [accepts_bind, accepts_expect]
  constructor
  · rintro ⟨⟨kind, place⟩, later, ⟨opens, rfl⟩, following⟩
    cases opens
    simp only [List.length_cons] at within shorter
    exact ⟨place, later, rfl, (faithful.blockRest (by omega) (by omega)).mp following⟩
  · rintro ⟨bracePlace, later, rfl, blocked⟩
    simp only [List.length_cons] at within shorter
    exact ⟨_, later, ⟨rfl, rfl⟩, (faithful.blockRest (by omega) (by omega)).mpr blocked⟩

/-! ### Arms -/

theorem Faithful.condition (faithful : Faithful inner size) {test : Expression}
    (shorter : input.length ≤ size) :
    (condition inner).Accepts input test rest ↔
      ∃ openPlace later closePlace, input = .ok ⟨.mark .leftParenthesis, openPlace⟩ :: later ∧
        ReadsExpression .lowest later test
          (.ok ⟨.mark .rightParenthesis, closePlace⟩ :: rest) := by
  unfold Grammar.condition
  simp only [accepts_bind, accepts_expect, accepts_pure]
  constructor
  · rintro ⟨⟨kind, place⟩, later, ⟨opens, rfl⟩, value, middle, following, ⟨closeKind, closePlace⟩,
      _, ⟨closes, rfl⟩, rfl, rfl⟩
    cases opens
    cases closes
    simp only [List.length_cons] at shorter
    exact ⟨place, later, closePlace, rfl, (faithful.required (by omega)).mp following⟩
  · rintro ⟨openPlace, later, closePlace, rfl, following⟩
    simp only [List.length_cons] at shorter
    exact ⟨_, later, ⟨rfl, rfl⟩, test, _, (faithful.required (by omega)).mpr following,
      _, rest, ⟨rfl, rfl⟩, rfl, rfl⟩

theorem Faithful.arm (faithful : Faithful inner size) {armed : Arm}
    (within : input.length ≤ limit) (shorter : input.length ≤ size) :
    (arm inner limit).Accepts input armed rest ↔ ReadsArm input armed rest := by
  unfold Grammar.arm
  simp only [accepts_bind, accepts_pure]
  constructor
  · rintro ⟨test, middle, tested, body, _, blocked, rfl, rfl⟩
    obtain ⟨openPlace, later, closePlace, rfl, following⟩ := (faithful.condition shorter).mp tested
    have left := following.takes.length_le
    simp only [List.length_cons] at within shorter left
    obtain ⟨bracePlace, behind, rfl, derived⟩ :=
      (faithful.block (by omega) (by omega)).mp blocked
    exact .arm following derived
  · intro derived
    cases derived with
    | arm following blocked =>
        have left := following.takes.length_le
        refine ⟨_, _, (faithful.condition shorter).mpr ⟨_, _, _, rfl, following⟩, _, _,
          (faithful.block ?_ ?_).mpr ⟨_, _, rfl, blocked⟩, rfl, rfl⟩
        · simp only [List.length_cons] at within left ⊢
          omega
        · simp only [List.length_cons] at shorter left ⊢
          omega

theorem furtherArms_turn {token : Token} {blockLimit : Nat} {others : List Arm}
    {otherwise : Option (List Expression)} :
    (furtherArms inner blockLimit (limit + 1)).Accepts (.ok token :: input) (others, otherwise)
      rest ↔
        (¬ continuesConditional token.kind ∧ others = [] ∧ otherwise = none ∧
            rest = .ok token :: input) ∨
          (token.kind = .keyword .elif ∧ ∃ next middle following, others = next :: following ∧
            (arm inner blockLimit).Accepts input next middle ∧
              (furtherArms inner blockLimit limit).Accepts middle (following, otherwise) rest) ∨
          (token.kind = .keyword .else ∧ ∃ body, others = [] ∧ otherwise = some body ∧
            (block inner blockLimit).Accepts input body rest) := by
  obtain ⟨kind, place⟩ := token
  rw [furtherArms, accepts_peek_token]
  constructor
  · intro accepted
    split at accepted
    · rename_i same
      cases same
      rw [accepts_skip_token] at accepted
      simp only [accepts_bind, accepts_pure] at accepted
      obtain ⟨next, middle, armed, ⟨following, last⟩, _, continued, same, rfl⟩ := accepted
      cases same
      exact .inr (.inl ⟨rfl, next, middle, following, rfl, armed, continued⟩)
    · rename_i same
      cases same
      rw [accepts_skip_token] at accepted
      simp only [accepts_bind, accepts_pure] at accepted
      obtain ⟨body, _, blocked, same, rfl⟩ := accepted
      cases same
      exact .inr (.inr ⟨rfl, body, rfl, rfl, blocked⟩)
    · rename_i notElif notElse
      obtain ⟨same, rfl⟩ := accepted
      cases same
      refine .inl ⟨?_, rfl, rfl, rfl⟩
      rintro (rfl | rfl)
      · exact notElif place rfl
      · exact notElse place rfl
  · rintro (⟨stops, rfl, rfl, rfl⟩ | ⟨rfl, next, middle, following, rfl, armed, continued⟩ |
      ⟨rfl, body, rfl, rfl, blocked⟩)
    · split
      · rename_i same
        cases same
        exact absurd (.inl rfl) stops
      · rename_i same
        cases same
        exact absurd (.inr rfl) stops
      · exact ⟨rfl, rfl⟩
    · dsimp only
      rw [accepts_skip_token]
      simp only [accepts_bind, accepts_pure]
      exact ⟨next, middle, armed, (following, otherwise), rest, continued, rfl, rfl⟩
    · dsimp only
      rw [accepts_skip_token]
      simp only [accepts_bind, accepts_pure]
      exact ⟨body, rest, blocked, rfl, rfl⟩

theorem Faithful.furtherArms (faithful : Faithful inner size) {blockLimit : Nat}
    {others : List Arm} {otherwise : Option (List Expression)}
    (within : input.length < limit) (blockWithin : input.length ≤ blockLimit)
    (shorter : input.length ≤ size) :
    (furtherArms inner blockLimit limit).Accepts input (others, otherwise) rest ↔
      ReadsFurtherArms input others otherwise rest := by
  induction limit generalizing input others otherwise with
  | zero => omega
  | succ limit ih =>
      rcases input with _ | ⟨failure | ⟨kind, place⟩, later⟩
      · constructor
        · rintro ⟨same, rfl⟩
          cases same
          exact .stop trivial
        · intro derived
          cases derived
          exact ⟨rfl, rfl⟩
      · constructor
        · intro accepted
          cases accepted
        · intro derived
          cases derived
          contradiction
      simp only [List.length_cons] at within blockWithin shorter
      rw [furtherArms_turn]
      constructor
      · rintro (⟨stops, rfl, rfl, rfl⟩ | ⟨same, next, middle, following, rfl, armed, continued⟩ |
          ⟨same, body, rfl, rfl, blocked⟩)
        · exact .stop stops
        · cases same
          have derived := (faithful.arm (by omega) (by omega)).mp armed
          have left := derived.takes.length_le
          exact .further derived ((ih (by omega) (by omega) (by omega)).mp continued)
        · cases same
          obtain ⟨bracePlace, inside, rfl, derived⟩ :=
            (faithful.block (by omega) (by omega)).mp blocked
          exact .last derived
      · intro derived
        cases derived with
        | stop ahead => exact .inl ⟨ahead, rfl, rfl, rfl⟩
        | further armed continued =>
            have left := armed.takes.length_le
            exact .inr (.inl ⟨rfl, _, _, _, rfl, (faithful.arm (by omega) (by omega)).mpr armed,
              (ih (by omega) (by omega) (by omega)).mpr continued⟩)
        | last blocked =>
            exact .inr (.inr ⟨rfl, _, rfl, rfl,
              (faithful.block (by omega) (by omega)).mpr ⟨_, _, rfl, blocked⟩⟩)

/-! ### Statements -/

section Statements

variable {start : Location}

theorem Faithful.resultForm (faithful : Faithful inner size) (shorter : input.length < size) :
    (resultForm inner start).Accepts (.ok ⟨.keyword .return, start⟩ :: input) tree rest ↔
      ReadsStatement ⟨.keyword .return, start⟩ input tree rest := by
  unfold Grammar.resultForm
  rw [accepts_skip_token]
  simp only [accepts_bind, accepts_pure]
  constructor
  · rintro ⟨value, _, following, rfl, rfl⟩
    exact .result ((faithful.required shorter).mp following)
  · intro derived
    cases derived with
    | result following =>
        exact ⟨_, rest, (faithful.required shorter).mpr following, rfl, rfl⟩

theorem Faithful.conditionalForm (faithful : Faithful inner size)
    (within : input.length < limit) (shorter : input.length < size) :
    (conditionalForm inner limit start).Accepts (.ok ⟨.keyword .if, start⟩ :: input) tree rest ↔
      ReadsStatement ⟨.keyword .if, start⟩ input tree rest := by
  unfold Grammar.conditionalForm
  rw [accepts_skip_token]
  simp only [accepts_bind, accepts_pure]
  constructor
  · rintro ⟨first, middle, armed, ⟨others, otherwise⟩, _, following, rfl, rfl⟩
    have derived := (faithful.arm (by omega) (by omega)).mp armed
    have left := derived.takes.length_le
    exact .conditional derived
      ((faithful.furtherArms (by omega) (by omega) (by omega)).mp following)
  · intro derived
    cases derived with
    | conditional begun continued =>
        have left := begun.takes.length_le
        exact ⟨_, _, (faithful.arm (by omega) (by omega)).mpr begun, (_, _), rest,
          (faithful.furtherArms (by omega) (by omega) (by omega)).mpr continued,
          rfl, rfl⟩

theorem Faithful.loopForm (faithful : Faithful inner size)
    (within : input.length < limit) (shorter : input.length < size) :
    (loopForm inner limit start).Accepts (.ok ⟨.keyword .while, start⟩ :: input) tree rest ↔
      ReadsStatement ⟨.keyword .while, start⟩ input tree rest := by
  unfold Grammar.loopForm
  rw [accepts_skip_token]
  simp only [accepts_bind, accepts_pure]
  constructor
  · rintro ⟨repeated, _, armed, rfl, rfl⟩
    exact .loop ((faithful.arm (by omega) (by omega)).mp armed)
  · intro derived
    cases derived with
    | loop armed =>
        exact ⟨_, rest, (faithful.arm (by omega) (by omega)).mpr armed, rfl, rfl⟩

end Statements

end Shading.Grammar
