import Shading.Proofs.Grammar.Outcome

/-!
What the error of a program depends on.

An error is settled by the tokens that were pulled. If they are all there are, it
stands at the last of them; if not, the tokens behind them play no part, and it
shows the token that was pulled last.
-/

namespace Shading

/-- Parse a list of tokens, and count how many of them were pulled. -/
def readTokens (tokens : List Token) : Except SyntaxError Program × Nat :=
  let (outcome, parser) := (Parser.ofSource (tokens.map .ok : List TokenItem)).program
  (outcome, parser.pulled)

variable {tokens other : List Token} {failure : SyntaxError} {pulled limit : Nat}

theorem readTokens_eq_items (tokens : List Token) :
    readTokens tokens =
      ((Trail.start.onto (Lookahead.ofSource []) (tokens.map Except.ok)).program.1,
        (Trail.start.onto (Lookahead.ofSource []) (tokens.map Except.ok)).program.2.pulled) := rfl

theorem items_injective {others : List Token}
    (same : (tokens.map .ok : List TokenItem) = others.map .ok) : tokens = others :=
  (List.map_inj_right fun _ _ => Except.ok.inj).mp same

theorem readTokens_error_cases (enough : tokens.length < limit)
    (failed : readTokens tokens = (.error failure, pulled)) :
    (failure.fault.isEnd = true ∧ pulled = tokens.length ∧
      ∃ before last, tokens = before ++ [last] ∧ failure.location = last.location) ∨
    (failure.fault.isEnd = false ∧ pulled ≤ tokens.length ∧
      failure.Blames (tokens.take pulled) ∧
        Parser.Refuses limit (tokens.take pulled) failure) := by
  rw [readTokens_eq_items] at failed
  obtain ⟨outcome, counted⟩ := Prod.mk.inj failed
  have within : (tokens.map Except.ok : List TokenItem).length < limit := by
    rw [List.length_map]
    exact enough
  rcases Parser.program_error_cases within outcome with
    inTokens | ⟨before, last, split, isEnd, place, all⟩ |
      ⟨shown, later, split, notEnd, blames, refused⟩
  · obtain ⟨token, _, absurdity⟩ := List.mem_map.mp inTokens
    cases absurdity
  · have same : tokens = before ++ [last] := items_injective split
    have count : pulled = tokens.length := by
      rw [← counted, all, List.length_map]
      exact Nat.zero_add _
    exact .inl ⟨isEnd, count, before, last, same, place⟩
  · obtain ⟨first, rest, rfl, begins, _⟩ := List.map_eq_append_iff.mp split
    have same : first = shown := items_injective begins
    have count : pulled = shown.length := by
      rw [← counted, (refused.program split within).2]
      exact Nat.zero_add _
    rw [same, count, List.take_left, List.length_append]
    exact .inr ⟨notEnd, Nat.le_add_right _ _, blames, refused⟩

/-- Tokens that begin alike up to a refusal are refused alike. -/
theorem readTokens_of_refusal (failed : readTokens tokens = (.error failure, pulled))
    (notEnd : failure.fault.isEnd = false) (agree : other.take pulled = tokens.take pulled) :
    readTokens other = (.error failure, pulled) := by
  have enough : tokens.length < tokens.length + other.length + 1 := by omega
  rcases readTokens_error_cases enough failed with ⟨isEnd, _⟩ | ⟨_, most, _, refused⟩
  · rw [notEnd] at isEnd
    cases isEnd
  · have split : other.map Except.ok =
        (tokens.take pulled).map Except.ok ++ ((other.drop pulled).map .ok : List TokenItem) := by
      rw [← List.map_append, ← agree, List.take_append_drop]
    obtain ⟨outcome, count⟩ := refused.program split (by rw [List.length_map]; omega)
    rw [readTokens_eq_items, outcome, count, List.length_take, Nat.min_eq_left most]
    exact congrArg _ (Nat.zero_add _)

/-- An error that says the tokens ended comes when all were pulled, and stands at the
last one. Any other blames the last token that was pulled, or the bad role before it,
and comes alike from all tokens that begin with those that were pulled. Either way it
stands at a token, so the place that stands in for a last token never shows. -/
theorem readTokens_error (failed : readTokens tokens = (.error failure, pulled)) :
    (failure.fault.isEnd = true → pulled = tokens.length ∧
      ∃ last, tokens.getLast? = some last ∧ failure.location = last.location) ∧
    (failure.fault.isEnd = false → pulled ≤ tokens.length ∧
      failure.Blames (tokens.take pulled) ∧
        ∀ other, other.take pulled = tokens.take pulled →
          readTokens other = (.error failure, pulled)) ∧
    ∃ token ∈ tokens, failure.location = token.location := by
  rcases readTokens_error_cases (Nat.lt_succ_self _) failed with
    ⟨isEnd, all, before, last, rfl, place⟩ | ⟨notEnd, most, blames, _⟩
  · refine ⟨fun _ => ⟨all, last, List.getLast?_concat, place⟩, ?_, last, by simp, place⟩
    intro notEnd
    rw [isEnd] at notEnd
    cases notEnd
  · refine ⟨?_, fun _ => ⟨most, blames, fun other agree => ?_⟩, ?_⟩
    · intro isEnd
      rw [notEnd] at isEnd
      cases isEnd
    · exact readTokens_of_refusal failed notEnd agree
    · obtain ⟨token, member, place⟩ := blames.location_mem
      exact ⟨token, List.mem_of_mem_take member, place⟩

def badRole : List Token :=
  [⟨.mark .at, ⟨0, 0⟩⟩, ⟨.name "speed", ⟨0, 1⟩⟩, ⟨.name "position", ⟨0, 7⟩⟩,
    ⟨.mark .semicolon, ⟨0, 15⟩⟩]

theorem readTokens_error_of_badRole :
    readTokens badRole = (.error ⟨⟨0, 1⟩, .unexpectedToken (.name "speed")⟩, 3) ∧
      SyntaxError.Blames ⟨⟨0, 1⟩, .unexpectedToken (.name "speed")⟩ (badRole.take 3) ∧
        ∃ token ∈ badRole, (⟨0, 1⟩ : Location) = token.location :=
  have failed : readTokens badRole =
      (.error ⟨⟨0, 1⟩, .unexpectedToken (.name "speed")⟩, 3) := rfl
  have blamed := readTokens_error failed
  ⟨failed, (blamed.2.1 rfl).2.1, blamed.2.2⟩

end Shading
