import Shading.Proofs.Grammar.Separators
import Shading.Proofs.Grammar.Sequencing

/-!
Repeated separators mean one separator.

A run of semicolons and one of them are the same to a program, which is read with the same
tree, or given up with the same fault. Only behind the sign of a value of the pipeline may
the fault differ: a semicolon is taken for the role there, and the next token must be a name
before that is told. A run is then given up at its second semicolon, and one semicolon at
what stands behind it. In front of a program, and behind it, semicolons mean nothing.
-/

namespace Shading

open Grammar

variable {loose : Prop} {tokens single left right separators : List Token}

/-! ### One separator for every run -/

/-- A list of tokens, and the same with one semicolon, which may stand anywhere, for every
longest run of semicolons. -/
inductive Condensed : List Token → List Token → Prop where
  | nothing : Condensed [] []
  | token {token : Token} {left right : List Token} (solid : token.kind ≠ .mark .semicolon)
      (behind : Condensed left right) : Condensed (token :: left) (token :: right)
  | run {separators left right : List Token} {place : Location} (some : separators ≠ [])
      (only : ∀ token ∈ separators, token.kind = .mark .semicolon)
      (maximal : NotAhead (.mark .semicolon) left) (behind : Condensed left right) :
      Condensed (separators ++ left) (⟨.mark .semicolon, place⟩ :: right)

theorem Condensed.separator {place : Location} (condensed : Condensed left right) :
    ∃ single, Condensed (⟨.mark .semicolon, place⟩ :: left) single := by
  have first : ([⟨.mark .semicolon, place⟩] : List Token) ≠ [] := List.cons_ne_nil _ _
  have only : ∀ token ∈ ([⟨.mark .semicolon, place⟩] : List Token),
      token.kind = .mark .semicolon := List.forall_mem_singleton.mpr rfl
  cases condensed with
  | nothing => exact ⟨[⟨.mark .semicolon, place⟩], .run first only nofun .nothing⟩
  | @token token _ right solid behind =>
      have maximal : ∀ left, NotAhead (.mark .semicolon) (token :: left) := by
        rintro left _ ⟨⟩
        exact solid
      exact ⟨⟨.mark .semicolon, place⟩ :: token :: right,
        .run first only (maximal _) (.token solid behind)⟩
  | @run separators left right found some others maximal behind =>
      exact ⟨⟨.mark .semicolon, place⟩ :: right,
        @run (⟨.mark .semicolon, place⟩ :: separators) left right place (List.cons_ne_nil _ _)
          (List.forall_mem_cons.mpr ⟨rfl, others⟩) maximal behind⟩

theorem exists_condensed (tokens : List Token) : ∃ single, Condensed tokens single := by
  induction tokens with
  | nil => exact ⟨[], .nothing⟩
  | cons token others ih =>
      obtain ⟨single, condensed⟩ := ih
      obtain ⟨kind, place⟩ := token
      by_cases separator : kind = .mark .semicolon
      · subst separator
        exact condensed.separator
      · exact ⟨⟨kind, place⟩ :: single, .token separator condensed⟩

theorem Respaced.of_run {place : Location} (some : separators ≠ [])
    (only : ∀ token ∈ separators, token.kind = .mark .semicolon)
    (behind : Respaced loose left right) :
    Respaced loose (separators ++ left) (⟨.mark .semicolon, place⟩ :: right) := by
  induction separators with
  | nil => exact absurd rfl some
  | cons token others ih =>
      obtain ⟨kind, found⟩ := token
      obtain ⟨separator, following⟩ := List.forall_mem_cons.mp only
      cases separator
      cases others with
      | nil => exact .separator behind
      | cons next others => exact .repeated (ih (List.cons_ne_nil _ _) following)

theorem Condensed.respaced (condensed : Condensed tokens single) :
    Respaced loose tokens single := by
  induction condensed with
  | nothing => exact .nothing
  | token solid _ ih => exact .token solid ih
  | run some only _ _ ih => exact .of_run some only ih

theorem respaced_trailing (tokens : List Token)
    (only : ∀ token ∈ separators, token.kind = .mark .semicolon) :
    Respaced True (tokens ++ separators) tokens := by
  induction tokens with
  | nil => exact .of_separators trivial only
  | cons token others ih =>
      obtain ⟨kind, place⟩ := token
      by_cases separator : kind = .mark .semicolon
      · subst separator
        exact .separator ih
      · exact .token separator ih

/-! ### Programs of such lists -/

theorem parseTokens_course {limit : Nat} (enough : tokens.length < limit) :
    (parseTokens tokens).mapError SyntaxError.fault =
        ((programForm limit limit).course ⟨false, tokens⟩).1.map Program.mk ∧
      ((programForm limit limit).course ⟨false, tokens⟩).2.Of
        (Parser.ofSource (tokens.map Except.ok : List TokenItem)).program.2 := by
  have stands := Standing.of_list tokens false
  have within : (Parser.ofSource (tokens.map Except.ok : List TokenItem)).pending.length <
      limit := by
    rw [stands.left, List.length_map]
    exact enough
  obtain ⟨answer, left⟩ := (programForm limit limit).run_course stands
  unfold parseTokens
  rw [Parser.program_eq_run within within, ← answer]
  refine ⟨?_, left⟩
  dsimp only
  cases ((programForm limit limit).run
    (Parser.ofSource (tokens.map Except.ok : List TokenItem))).1 <;> rfl

theorem eq_ok_of_mapError {result : Except SyntaxError Program} {program : Program}
    (answered : result.mapError SyntaxError.fault = .ok program) : result = .ok program := by
  cases result with
  | error failure => cases answered
  | ok found =>
      cases answered
      rfl

/-- Lists with the same tokens but for repeated separators are the same program, or both
fail, with the same fault unless the first stumbled. -/
theorem parseTokens_respaced (respaced : Respaced loose left right) :
    (∃ program, parseTokens left = .ok program ∧ parseTokens right = .ok program) ∨
    ∃ fault other standing, (parseTokens left).mapError SyntaxError.fault = .error fault ∧
      (parseTokens right).mapError SyntaxError.fault = .error other ∧
      standing.Of (Parser.ofSource (left.map Except.ok : List TokenItem)).program.2 ∧
        (loose ∨ fault = other ∨ Stumbled left fault other standing) := by
  have enough : left.length < left.length + 1 := Nat.lt_succ_self _
  obtain ⟨first, stands⟩ := parseTokens_course enough
  obtain ⟨second, _⟩ := parseTokens_course (Nat.lt_of_le_of_lt respaced.length_le enough)
  have tolerates : Tolerates loose (left.length + 1)
      (programForm (left.length + 1) (left.length + 1)) := programForm_tolerates
  have agree := tolerates.agree false false respaced enough
  rcases ran : (programForm (left.length + 1) (left.length + 1)).course ⟨false, left⟩ with
    ⟨outcome, standing⟩
  rcases ranOther : (programForm (left.length + 1) (left.length + 1)).course ⟨false, right⟩ with
    ⟨otherOutcome, _⟩
  rw [ran] at first stands agree
  rw [ranOther] at second agree
  cases agree with
  | @answered trees => exact .inl ⟨⟨trees⟩, eq_ok_of_mapError first, eq_ok_of_mapError second⟩
  | failed told => exact .inr ⟨_, _, standing, first, second, stands, told⟩

theorem parseTokens_ok_of_respaced (respaced : Respaced loose left right) (program : Program) :
    parseTokens left = .ok program ↔ parseTokens right = .ok program := by
  rcases parseTokens_respaced respaced with
    ⟨found, first, second⟩ | ⟨fault, other, _, first, second, _⟩
  · rw [first, second]
  · constructor
    · intro parsed
      rw [parsed] at first
      cases first
    · intro parsed
      rw [parsed] at second
      cases second

/-! ### Where the fault differs -/

/-- A program is given up at the second of several semicolons behind the sign of a value of
the pipeline, where no name stands behind the semicolons. -/
structure GivenUpAtSign (tokens behind : List Token) : Prop where
  fault : (parseTokens tokens).mapError SyntaxError.fault =
    .error (.unexpectedToken (.mark .semicolon))
  split : ∃ before sign first second run, tokens = before ++ ⟨.mark .at, sign⟩ ::
      ⟨.mark .semicolon, first⟩ :: ⟨.mark .semicolon, second⟩ :: (run ++ behind) ∧
    (∀ token ∈ run, token.kind = .mark .semicolon) ∧ (readTokens tokens).2 = before.length + 3
  maximal : NotAhead (.mark .semicolon) behind
  nameless : ∀ name, NotAhead (.name name) behind

theorem readTokens_pulled {standing : Standing}
    (stands : standing.Of (Parser.ofSource (tokens.map Except.ok : List TokenItem)).program.2)
    (unseen : standing.seen = false) :
    (readTokens tokens).2 + standing.rest.length = tokens.length := by
  have enough : (tokens.map Except.ok : List TokenItem).length < tokens.length + 1 := by
    rw [List.length_map]
    exact Nat.lt_succ_self _
  obtain ⟨ending, after, later, _, _, split, ran, _⟩ :=
    Parser.program_explored (Lookahead.ofSource []) enough
  have same : (Parser.ofSource (tokens.map Except.ok : List TokenItem)).program =
      Parser.finished (Lookahead.ofSource []) ending after later := ran
  rw [same] at stands
  have free : (after.onto (Lookahead.ofSource []) later).held = none := stands.unheld unseen
  have rest : later = standing.rest.map .ok := by
    have left : (after.onto (Lookahead.ofSource []) later).held.toList ++ Source.items later =
        standing.rest.map .ok := stands.left
    rw [free, Source.items_list] at left
    exact left
  have lengths := congrArg List.length split
  rw [rest, List.length_append, List.length_map, List.length_map] at lengths
  rw [readTokens_eq_items, ran, lengths]
  dsimp only [Parser.finished]
  rw [Parser.pulled_onto]
  exact congrArg (· + standing.rest.length) (Nat.zero_add _)

/-- Condensed tokens are the same program, or fail with the same fault; or the sign of a value
stands in front of a run of semicolons, where the program is given up. One semicolon is given
up behind it. -/
theorem Condensed.fault_cases (condensed : Condensed tokens single) :
    (parseTokens tokens).mapError SyntaxError.fault =
        (parseTokens single).mapError SyntaxError.fault ∨
      ∃ behind, GivenUpAtSign tokens behind ∧
        (parseTokens single).mapError SyntaxError.fault = .error (.refusing behind.head?) := by
  have respaced : Respaced False tokens single := condensed.respaced
  rcases parseTokens_respaced respaced with
    ⟨program, first, second⟩ | ⟨fault, other, standing, first, second, stands, told⟩
  · rw [first, second]
    exact .inl rfl
  · rcases told with absurdity | rfl | stumbled
    · exact absurdity.elim
    · exact .inl (first.trans second.symm)
    · cases stumbled with
      | @behindSign before run behind sign one two only maximal nameless =>
          have pulled := readTokens_pulled stands rfl
          refine .inr ⟨behind, ⟨first, ⟨before, sign, one, two, run, rfl, only, ?_⟩, maximal,
            nameless⟩, second⟩
          simp only [List.length_append, List.length_cons] at pulled
          omega

/-! ### In front of a program -/

theorem parseTokens_separator (place : Location) (tokens : List Token) :
    parseTokens (⟨.mark .semicolon, place⟩ :: tokens) = parseTokens tokens := by
  have ahead : (Parser.ofSource ((⟨.mark .semicolon, place⟩ :: tokens).map Except.ok :
      List TokenItem)).pending = .ok ⟨.mark .semicolon, place⟩ :: tokens.map .ok :=
    Source.items_list _
  obtain ⟨after, left, free, same⟩ := Parser.program_separator ahead
  have again : after = Trail.start.onto after (tokens.map .ok) := Parser.eq_onto_start left free
  have anywhere : (Trail.start.onto after (tokens.map .ok)).program.1 =
      (Trail.start.onto (Lookahead.ofSource []) (tokens.map .ok)).program.1 :=
    Parser.program_anywhere
  rw [← again, ← same] at anywhere
  exact anywhere

theorem parseTokens_leading (tokens : List Token)
    (only : ∀ token ∈ separators, token.kind = .mark .semicolon) :
    parseTokens (separators ++ tokens) = parseTokens tokens := by
  induction separators with
  | nil => rfl
  | cons token others ih =>
      obtain ⟨kind, place⟩ := token
      obtain ⟨separator, following⟩ := List.forall_mem_cons.mp only
      cases separator
      exact (parseTokens_separator place (others ++ tokens)).trans (ih following)

/-! ### Repeated separators -/

/-- Every list of tokens can be condensed, to one semicolon for every run of them. It is then
the same program, places included, or both lists fail; with the same fault, unless the program
is given up in a run behind the sign of a value. One semicolon is then given up at the token
behind the run. Semicolons in front of a list change nothing, and none that stand behind it
make or unmake a program. -/
theorem condensing_keeps_programs :
    (∀ tokens, ∃ single, Condensed tokens single) ∧
    (∀ {tokens single : List Token}, Condensed tokens single →
      (∀ program, parseTokens tokens = .ok program ↔ parseTokens single = .ok program) ∧
      ((parseTokens tokens).mapError SyntaxError.fault =
          (parseTokens single).mapError SyntaxError.fault ∨
        ∃ behind, GivenUpAtSign tokens behind ∧
          (parseTokens single).mapError SyntaxError.fault = .error (.refusing behind.head?))) ∧
    ∀ {separators : List Token}, (∀ token ∈ separators, token.kind = .mark .semicolon) →
      ∀ tokens, parseTokens (separators ++ tokens) = parseTokens tokens ∧
        ∀ program, parseTokens (tokens ++ separators) = .ok program ↔
          parseTokens tokens = .ok program := by
  refine ⟨exists_condensed, ?_, ?_⟩
  · intro tokens single condensed
    have respaced : Respaced False tokens single := condensed.respaced
    exact ⟨parseTokens_ok_of_respaced respaced, condensed.fault_cases⟩
  · intro separators only tokens
    exact ⟨parseTokens_leading tokens only,
      parseTokens_ok_of_respaced (respaced_trailing tokens only)⟩

/-- The tokens of `;; true ;; false ;`, each at the origin. -/
def spacedTruths : List Token :=
  [.mark .semicolon, .mark .semicolon, .keyword .true, .mark .semicolon, .mark .semicolon,
    .keyword .false, .mark .semicolon].map fun kind => ⟨kind, .origin⟩

def condensedTruths : List Token :=
  [.mark .semicolon, .keyword .true, .mark .semicolon, .keyword .false, .mark .semicolon].map
    fun kind => ⟨kind, .origin⟩

theorem spacedTruths_condensed : Condensed spacedTruths condensedTruths := by
  have last : Condensed [⟨.keyword .false, .origin⟩, ⟨.mark .semicolon, .origin⟩]
      [⟨.keyword .false, .origin⟩, ⟨.mark .semicolon, .origin⟩] :=
    .token nofun (@Condensed.run [⟨.mark .semicolon, .origin⟩] [] [] .origin nofun (by decide)
      nofun .nothing)
  have first := @Condensed.run [⟨.mark .semicolon, .origin⟩, ⟨.mark .semicolon, .origin⟩] _ _
    .origin nofun (by decide) (by rintro token ⟨⟩; exact nofun) last
  exact @Condensed.run [⟨.mark .semicolon, .origin⟩, ⟨.mark .semicolon, .origin⟩] _ _ .origin
    nofun (by decide) (by rintro token ⟨⟩; exact nofun) (.token nofun first)

/-- Condensed or not, with a semicolon more in front or behind, the two truths are one program. -/
theorem condensing_keeps_programs_of_spacedTruths :
    Condensed spacedTruths condensedTruths ∧
      parseTokens spacedTruths = .ok ⟨[.truth true .origin, .truth false .origin]⟩ ∧
      parseTokens (⟨.mark .semicolon, .origin⟩ :: condensedTruths) = parseTokens condensedTruths ∧
      parseTokens (condensedTruths ++ [⟨.mark .semicolon, .origin⟩]) =
        .ok ⟨[.truth true .origin, .truth false .origin]⟩ := by
  have only : ∀ token ∈ ([⟨.mark .semicolon, .origin⟩] : List Token),
      token.kind = .mark .semicolon := List.forall_mem_singleton.mpr rfl
  obtain ⟨same, _⟩ := condensing_keeps_programs.2.1 spacedTruths_condensed
  obtain ⟨leading, trailing⟩ := condensing_keeps_programs.2.2 only condensedTruths
  exact ⟨spacedTruths_condensed, (same _).mpr rfl, leading, (trailing _).mpr rfl⟩

def signedRun : List Token :=
  [.mark .at, .mark .semicolon, .mark .semicolon].map fun kind => ⟨kind, .origin⟩

def signedSeparator : List Token := [.mark .at, .mark .semicolon].map fun kind => ⟨kind, .origin⟩

/-- Behind the sign of a value the number of semicolons shows: two of them are given up at the
second one, and one at the end of the tokens. -/
theorem condensing_shows_behind_sign :
    Condensed signedRun signedSeparator ∧
      (parseTokens signedRun).mapError SyntaxError.fault =
        .error (.unexpectedToken (.mark .semicolon)) ∧
      (parseTokens signedSeparator).mapError SyntaxError.fault = .error .unexpectedEnd ∧
      (parseTokens signedRun).mapError SyntaxError.fault ≠
        (parseTokens signedSeparator).mapError SyntaxError.fault := by
  have condensed : Condensed [⟨.mark .semicolon, .origin⟩, ⟨.mark .semicolon, .origin⟩]
      [⟨.mark .semicolon, .origin⟩] :=
    @Condensed.run [⟨.mark .semicolon, .origin⟩, ⟨.mark .semicolon, .origin⟩] [] [] .origin nofun
      (by decide) nofun .nothing
  exact ⟨.token nofun condensed, rfl, rfl, nofun⟩

end Shading
