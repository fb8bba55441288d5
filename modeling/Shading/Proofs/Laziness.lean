import Shading.Proofs.Grammar.Fidelity
import Shading.Proofs.Grammar.Outcome
import Shading.Proofs.Lexer.Tokens

/-!
Reading a text and reading its tokens.

A text is parsed while it is cut into tokens. That it could as well be cut first is
not evident where the lexer fails: its error is met in the middle of an expression,
and the parser must neither take it for the end nor overlook it.
-/

namespace Shading

open Grammar

namespace Parser

theorem parse_eq_items (source : String) :
    parse source =
      (Trail.start.onto (Lookahead.ofSource [])
        (Source.items (Lexer.ofString source))).program.1 := by
  have listed := program_listed (Parser.ofSource (Lexer.ofString source))
  exact (congrArg Prod.fst listed).symm

theorem parseTokens_eq_items (tokens : List Token) :
    parseTokens tokens =
      (Trail.start.onto (Lookahead.ofSource []) (tokens.map Except.ok)).program.1 := rfl

theorem program_of_error {items : List TokenItem} {failure : SyntaxError}
    {base : Parser (List TokenItem)} (member : .error failure ∈ items) :
    ∃ found, (Trail.start.onto base items).program.1 = .error found := by
  cases outcome : (Trail.start.onto base items).program.1 with
  | error found => exact ⟨found, rfl⟩
  | ok program =>
      obtain ⟨tokens, same, _⟩ := (program_iff.mp outcome).takes
      rw [pending_onto_start, List.append_nil] at same
      rw [same] at member
      obtain ⟨token, _, absurdity⟩ := List.mem_map.mp member
      cases absurdity

theorem shown_prefix {tokens shown : List Token} {failure : SyntaxError}
    {later : List TokenItem}
    (split : tokens.map Except.ok ++ [.error failure] = shown.map Except.ok ++ later) :
    ∃ behind : List TokenItem, tokens.map Except.ok = shown.map Except.ok ++ behind := by
  induction shown generalizing tokens with
  | nil => exact ⟨_, rfl⟩
  | cons first others ih =>
      cases tokens with
      | nil => cases split
      | cons token tokens =>
          rw [List.map_cons, List.map_cons, List.cons_append, List.cons_append] at split
          obtain ⟨same, rest⟩ := List.cons.inj split
          cases same
          obtain ⟨behind, found⟩ := ih rest
          exact ⟨behind, congrArg (Except.ok first :: ·) found⟩

variable {source : String} {tokens : List Token} {failure found : SyntaxError}

theorem parse_error_of_lexer
    (items : Source.items (Lexer.ofString source) = tokens.map Except.ok ++ [.error failure])
    (unrefused : ∀ found, parseTokens tokens = .error found → found.fault.isEnd = true) :
    parse source = .error failure := by
  have member : .error failure ∈ tokens.map Except.ok ++ [.error failure] :=
    List.mem_append_right _ (List.mem_singleton_self _)
  rw [parse_eq_items, items]
  obtain ⟨found, failed⟩ := program_of_error member
  rw [failed]
  rcases program_error_cases (Nat.lt_succ_self _) failed with
    same | ⟨before, last, onlyTokens, _⟩ | ⟨shown, later, split, notEnd, _, refused⟩
  · rcases List.mem_append.mp same with inTokens | inError
    · obtain ⟨token, _, absurdity⟩ := List.mem_map.mp inTokens
      cases absurdity
    · cases List.mem_singleton.mp inError
      rfl
  · rw [onlyTokens] at member
    obtain ⟨token, _, absurdity⟩ := List.mem_map.mp member
    cases absurdity
  · obtain ⟨behind, begins⟩ := shown_prefix split
    have refusedTokens : parseTokens tokens = .error found := by
      rw [parseTokens_eq_items]
      exact (refused.program begins (by rw [List.length_append]; omega)).1
    rw [unrefused found refusedTokens] at notEnd
    cases notEnd

theorem parse_error_of_tokens
    (items : Source.items (Lexer.ofString source) = tokens.map Except.ok ++ [.error failure])
    (failed : parseTokens tokens = .error found) (notEnd : found.fault.isEnd = false) :
    parse source = .error found := by
  rw [parseTokens_eq_items] at failed
  have within : (tokens.map Except.ok : List TokenItem).length < tokens.length + 2 := by simp
  rcases program_error_cases within failed with
    inTokens | ⟨_, _, _, isEnd, _⟩ | ⟨shown, later, split, _, _, refused⟩
  · obtain ⟨token, _, absurdity⟩ := List.mem_map.mp inTokens
    cases absurdity
  · rw [notEnd] at isEnd
    cases isEnd
  · rw [split, List.append_assoc] at items
    rw [parse_eq_items]
    apply (refused.program items _).1
    rw [items, ← List.append_assoc, ← split]
    simp

/-- The error of a text is an item of its lexer, or it stands at a token. -/
theorem parse_error_cases (failed : parse source = .error failure) :
    .error failure ∈ Source.items (Lexer.ofString source) ∨
    ∃ token : Token, .ok token ∈ Source.items (Lexer.ofString source) ∧
      failure.location = token.location := by
  rw [parse_eq_items] at failed
  rcases program_error_cases (Nat.lt_succ_self _) failed with
    member | ⟨before, last, split, _, place, _⟩ | ⟨shown, later, split, _, blames, _⟩
  · exact .inl member
  · refine .inr ⟨last, ?_, place⟩
    rw [split]
    exact List.mem_map_of_mem (List.mem_append_right _ (List.mem_singleton_self _))
  · obtain ⟨token, member, place⟩ := blames.location_mem
    refine .inr ⟨token, ?_, place⟩
    rw [split]
    exact List.mem_append_left _ (List.mem_map_of_mem member)

end Parser

/-- Parsing a text is parsing its tokens. Where the lexer fails, its error is
reported if the tokens before it are a program or end too early, and theirs if they
are refused. -/
theorem parse_lazy (source : String) :
    match tokensUntilError source with
    | (tokens, none) => parse source = parseTokens tokens
    | (tokens, some failure) =>
      parse source = .error
        (match parseTokens tokens with
          | .ok _ => failure
          | .error found => if found.fault.isEnd then failure else found) := by
  obtain ⟨tokens, ending, items⟩ := Lexer.items_shape (Lexer.ofString source)
  have cut : tokensUntilError source = (tokens, ending) := by
    unfold tokensUntilError
    rw [items, untilError_append]
  rw [cut]
  cases ending with
  | none =>
      rw [Option.toList_none, List.map_nil, List.append_nil] at items
      dsimp only
      rw [Parser.parse_eq_items, items, Parser.parseTokens_eq_items]
  | some failure =>
      dsimp only
      cases outcome : parseTokens tokens with
      | ok program =>
          apply Parser.parse_error_of_lexer items
          intro found failed
          rw [outcome] at failed
          cases failed
      | error found =>
          dsimp only
          by_cases isEnd : found.fault.isEnd = true
          · rw [if_pos isEnd]
            apply Parser.parse_error_of_lexer items
            intro other failed
            rw [outcome] at failed
            cases failed
            exact isEnd
          · rw [if_neg isEnd]
            exact Parser.parse_error_of_tokens items outcome (Bool.eq_false_iff.mpr isEnd)

end Shading
