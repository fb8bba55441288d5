import Shading.Proofs.Errors
import Shading.Proofs.Grammar.Completion

/-!
Errors come at the first token that cannot be meant.

What was read before an error can be completed to a program: all of it if the
tokens ended, and everything before the last token that was pulled if this one was
refused. Behind the sign of a pipeline value it takes a role, which the parser judges
only when it has read the name behind it.
-/

namespace Shading

open Grammar

variable {tokens : List Token} {failure : SyntaxError} {pulled : Nat}

/-- The sign of a pipeline value is followed by a role or by nothing. -/
def RolesBehindSigns (tokens : List Token) : Prop :=
  ∀ before sign next after, tokens = before ++ sign :: next :: after → sign.kind = .mark .at →
    next.kind = .keyword .uniform ∨ next.kind = .keyword .input ∨ next.kind = .keyword .varying

theorem RolesBehindSigns.rolesFollow (roles : RolesBehindSigns tokens) :
    RolesFollow (tokens.map .ok) := by
  intro before place found after same
  obtain ⟨first, others, rfl, _, split⟩ := List.map_eq_append_iff.mp same
  obtain ⟨sign, behind, rfl, signSame, split⟩ := List.map_eq_cons_iff.mp split
  obtain ⟨next, later, rfl, nextSame, _⟩ := List.map_eq_cons_iff.mp split
  cases signSame
  cases nextSame
  rcases roles first _ _ later rfl rfl with uniform | input | varying
  · exact ⟨.uniform, by rw [uniform]; rfl⟩
  · exact ⟨.vertexInput, by rw [input]; rfl⟩
  · exact ⟨.varying, by rw [varying]; rfl⟩

theorem RolesBehindSigns.take (roles : RolesBehindSigns tokens) (count : Nat) :
    RolesBehindSigns (tokens.take count) := by
  intro before sign next after split
  apply roles before sign next (after ++ tokens.drop count)
  rw [← List.cons_append, ← List.cons_append, ← List.append_assoc, ← split,
    List.take_append_drop]

/-- Tokens that end too early are the beginning of a program. -/
theorem completable_of_end (roles : RolesBehindSigns tokens)
    (failed : readTokens tokens = (.error failure, pulled)) (isEnd : failure.fault.isEnd = true) :
    ∃ completion program, parseTokens (tokens ++ completion) = .ok program := by
  let parser : Parser (List TokenItem) := Parser.ofSource (tokens.map .ok)
  have pending : parser.pending = tokens.map .ok := Source.items_list _
  have enough : parser.pending.length < tokens.length + 1 := by
    rw [pending, List.length_map]
    exact Nat.lt_succ_self _
  have outcome : parser.program.1 = .error failure := congrArg Prod.fst failed
  rw [Parser.program_eq_run enough enough] at outcome
  have lacks : (programForm (tokens.length + 1) (tokens.length + 1)).Lacks parser.pending := by
    rcases ran : (programForm (tokens.length + 1) (tokens.length + 1)).run parser with
      ⟨found | trees, after⟩
    · rw [ran] at outcome
      cases outcome
      exact Reading.lacks_of_run ran isEnd pending
    · rw [ran] at outcome
      cases outcome
  obtain ⟨completion, trees, derived⟩ :=
    programForm_completable enough (by rw [pending]; exact roles.rolesFollow) lacks
  refine ⟨completion, ⟨trees⟩, parseTokens_iff.mpr ?_⟩
  rw [List.map_append, ← pending]
  exact derived

theorem readTokens_before_refusal (failed : readTokens tokens = (.error failure, pulled))
    (notEnd : failure.fault.isEnd = false) {found : SyntaxError} {count : Nat}
    (earlier : readTokens (tokens.take (pulled - 1)) = (.error found, count)) :
    found.fault.isEnd = true := by
  cases early : found.fault.isEnd with
  | true => rfl
  | false =>
      rcases readTokens_error_cases (Nat.lt_succ_self _) failed with
        ⟨isEnd, _⟩ | ⟨_, most, blames, _⟩
      · rw [notEnd] at isEnd
        cases isEnd
      rcases readTokens_error_cases (Nat.lt_succ_self _) earlier with
        ⟨isEnd, _⟩ | ⟨_, fewer, _, _⟩
      · rw [early] at isEnd
        cases isEnd
      -- The refusal of fewer tokens would have come first.
      have positive : 0 < pulled := by
        apply Nat.pos_of_ne_zero
        rintro rfl
        exact blames.ne_nil rfl
      have least : count ≤ pulled - 1 := by
        rw [List.length_take] at fewer
        omega
      have agree : tokens.take count = (tokens.take (pulled - 1)).take count := by
        rw [List.take_take, Nat.min_eq_left least]
      have same := readTokens_of_refusal earlier early agree
      rw [failed] at same
      obtain ⟨_, counts⟩ := Prod.mk.inj same
      omega

/-- If a list of tokens fails, all of it can be completed to a program where it ended
too early, and otherwise all before the token that was pulled last. -/
theorem viable_prefix (roles : RolesBehindSigns tokens)
    (failed : readTokens tokens = (.error failure, pulled)) :
    ∃ completion program,
      parseTokens ((if failure.fault.isEnd then tokens else tokens.take (pulled - 1)) ++
        completion) = .ok program := by
  by_cases isEnd : failure.fault.isEnd = true
  · rw [if_pos isEnd]
    exact completable_of_end roles failed isEnd
  · rw [if_neg isEnd]
    rcases outcome : readTokens (tokens.take (pulled - 1)) with ⟨found | program, count⟩
    · have ended := readTokens_before_refusal failed (Bool.eq_false_iff.mpr isEnd) outcome
      exact completable_of_end (roles.take _) outcome ended
    · refine ⟨[], program, ?_⟩
      rw [List.append_nil]
      exact congrArg Prod.fst outcome

def strayParenthesis : List Token :=
  [⟨.mark .at, ⟨0, 0⟩⟩, ⟨.keyword .uniform, ⟨0, 1⟩⟩, ⟨.name "tint", ⟨0, 9⟩⟩,
    ⟨.mark .rightParenthesis, ⟨0, 14⟩⟩]

theorem strayParenthesis_roles : RolesBehindSigns strayParenthesis := by
  intro before sign next after split atSign
  rcases before with _ | ⟨_, _ | ⟨_, _ | ⟨_, before⟩⟩⟩
  · cases split
    exact .inl rfl
  · cases split
    cases atSign
  · cases split
    cases atSign
  · have counted := congrArg List.length split
    simp [strayParenthesis] at counted
    omega

theorem viable_prefix_of_strayParenthesis :
    readTokens strayParenthesis =
        (.error ⟨⟨0, 14⟩, .unexpectedToken (.mark .rightParenthesis)⟩, 4) ∧
      ∃ completion program,
        parseTokens (strayParenthesis.take 3 ++ completion) = .ok program := by
  have failed : readTokens strayParenthesis =
      (.error ⟨⟨0, 14⟩, .unexpectedToken (.mark .rightParenthesis)⟩, 4) := rfl
  have completed := viable_prefix strayParenthesis_roles failed
  rw [if_neg (by decide)] at completed
  exact ⟨failed, completed⟩

end Shading
