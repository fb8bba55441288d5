import Shading.Parser
import Shading.Proofs.Grammar.StatementForms

/-!
Parsing and deriving agree.

An expression is read exactly where one can be derived, whatever limit is given
as long as it exceeds the number of items, and a program is read exactly where a
row of expressions can be derived. Both are stated for any lawful source.
-/

namespace Shading

namespace Grammar

open Reading

variable {inner : Inner} {size limit : Nat} {input rest : List TokenItem} {tree : Expression}

/-! ### Behind an operand -/

theorem accesses_turn {token : Token} {start : Location} {left : Expression} :
    (accesses inner start (limit + 1) left).Accepts (.ok token :: input) tree rest ↔
      (¬ beginsAccess token.kind ∧ tree = left ∧ rest = .ok token :: input) ∨
        (token.kind = .mark .dot ∧ ∃ name namePlace later,
          input = .ok ⟨.name name, namePlace⟩ :: later ∧
            (accesses inner start limit
              (.binary .member left (.memberName name namePlace) start)).Accepts later tree rest) ∨
        (token.kind = .mark .leftBracket ∧ ∃ position closePlace middle,
          (required inner .lowest).Accepts input position
            (.ok ⟨.mark .rightBracket, closePlace⟩ :: middle) ∧
              (accesses inner start limit (.binary .index left position start)).Accepts
                middle tree rest) := by
  obtain ⟨kind, place⟩ := token
  rw [accesses, accepts_peek_token]
  constructor
  · intro accepted
    split at accepted
    · rename_i same
      cases same
      rw [accepts_skip_token] at accepted
      simp only [accepts_bind, accepts_expectName] at accepted
      obtain ⟨⟨name, namePlace⟩, later, split, following⟩ := accepted
      exact .inr (.inl ⟨rfl, name, namePlace, later, split, following⟩)
    · rename_i same
      cases same
      rw [accepts_skip_token] at accepted
      simp only [accepts_bind, accepts_expect] at accepted
      obtain ⟨position, _, found, ⟨closeKind, closePlace⟩, middle, ⟨closes, rfl⟩, following⟩ :=
        accepted
      cases closes
      exact .inr (.inr ⟨rfl, position, closePlace, middle, found, following⟩)
    · rename_i notDot notBracket
      obtain ⟨rfl, rfl⟩ := accepted
      refine .inl ⟨?_, rfl, rfl⟩
      rintro (rfl | rfl)
      · exact notDot place rfl
      · exact notBracket place rfl
  · rintro (⟨stops, rfl, rfl⟩ | ⟨rfl, name, namePlace, later, rfl, following⟩ |
      ⟨rfl, position, closePlace, middle, found, following⟩)
    · split
      · rename_i same
        cases same
        exact absurd (.inl rfl) stops
      · rename_i same
        cases same
        exact absurd (.inr rfl) stops
      · exact ⟨rfl, rfl⟩
    · dsimp only
      rw [accepts_skip_token]
      simp only [accepts_bind, accepts_expectName]
      exact ⟨(name, namePlace), later, rfl, following⟩
    · dsimp only
      rw [accepts_skip_token]
      simp only [accepts_bind, accepts_expect]
      exact ⟨position, _, found, _, middle, ⟨rfl, rfl⟩, following⟩

theorem Faithful.accesses (faithful : Faithful inner size) {start : Location} {left : Expression}
    (within : input.length < limit) (shorter : input.length ≤ size) :
    (accesses inner start limit left).Accepts input tree rest ↔
      ReadsAccesses start left input tree rest := by
  induction limit generalizing input left with
  | zero => omega
  | succ limit ih =>
      rcases input with _ | ⟨failure | ⟨kind, place⟩, later⟩
      · constructor
        · rintro ⟨rfl, rfl⟩
          exact .stop trivial
        · intro derived
          cases derived
          exact ⟨rfl, rfl⟩
      · constructor
        · intro accepted
          cases accepted
        · intro derived
          cases derived
          contradiction
      -- In front of a token, one turn of the loop meets one rule.
      simp only [List.length_cons] at within shorter
      rw [accesses_turn]
      constructor
      · rintro (⟨stops, rfl, rfl⟩ | ⟨same, name, namePlace, behind, rfl, following⟩ |
          ⟨same, position, closePlace, middle, found, following⟩)
        · exact .stop stops
        · cases same
          simp only [List.length_cons] at within shorter
          exact .member ((ih (by omega) (by omega)).mp following)
        · cases same
          have derived := (faithful.required (by omega)).mp found
          have left := derived.takes.length_le
          simp only [List.length_cons] at left
          exact .index derived ((ih (by omega) (by omega)).mp following)
      · intro derived
        cases derived with
        | stop ahead => exact .inl ⟨ahead, rfl, rfl⟩
        | member others =>
            simp only [List.length_cons] at within shorter
            exact .inr (.inl ⟨rfl, _, _, _, rfl, (ih (by omega) (by omega)).mpr others⟩)
        | index following others =>
            have left := following.takes.length_le
            simp only [List.length_cons] at left
            exact .inr (.inr ⟨rfl, _, _, _, (faithful.required (by omega)).mpr following,
              (ih (by omega) (by omega)).mpr others⟩)

theorem operator?_of_endsChain {kind : Token.Kind} (ends : endsChain kind = true) :
    kind.operator? = none := by
  unfold endsChain at ends
  split at ends <;> first | rfl | cases ends

theorem chain_turn {token : Token} {bound : Precedence} {start : Location} {left : Expression} :
    (chain inner bound start (limit + 1) left).Accepts (.ok token :: input) tree rest ↔
      (stopsChain bound token.kind ∧ tree = left ∧ rest = .ok token :: input) ∨
        ∃ operator right middle, token.kind.operator? = some operator ∧
          operator.standsBetween = true ∧ bound < operator.precedence ∧
            (required inner operator.precedence).Accepts input right middle ∧
              (chain inner bound start limit (.binary operator left right start)).Accepts
                middle tree rest := by
  rw [chain, accepts_peek_token]
  dsimp only
  constructor
  · intro accepted
    split at accepted
    · rename_i ends
      obtain ⟨rfl, rfl⟩ := accepted
      exact .inl ⟨.inl ends, rfl, rfl⟩
    split at accepted
    · cases accepted
    rename_i operator stands
    split at accepted
    · rename_i between
      split at accepted
      · rename_i looser
        obtain ⟨rfl, rfl⟩ := accepted
        exact .inl ⟨.inr ⟨operator, stands, between, looser⟩, rfl, rfl⟩
      · rename_i tighter
        rw [accepts_skip_token, accepts_bind] at accepted
        obtain ⟨right, middle, found, following⟩ := accepted
        exact .inr ⟨operator, right, middle, stands, between, Nat.not_le.mp tighter, found,
          following⟩
    · cases accepted
  · have goesOn : ∀ {operator}, token.kind.operator? = some operator →
        ¬ endsChain token.kind = true := by
      intro operator stands ends
      rw [operator?_of_endsChain ends] at stands
      cases stands
    rintro (⟨ends | ⟨operator, stands, between, looser⟩, rfl, rfl⟩ |
      ⟨operator, right, middle, stands, between, tighter, found, following⟩)
    · rw [if_pos ends]
      exact ⟨rfl, rfl⟩
    · rw [if_neg (goesOn stands), stands]
      dsimp only
      rw [if_pos between, if_pos looser]
      exact ⟨rfl, rfl⟩
    · have notLooser : ¬ operator.precedence ≤ bound := Nat.not_le.mpr tighter
      rw [if_neg (goesOn stands), stands]
      dsimp only
      rw [if_pos between, if_neg notLooser, accepts_skip_token, accepts_bind]
      exact ⟨right, middle, found, following⟩

theorem Faithful.chain (faithful : Faithful inner size) {bound : Precedence} {start : Location}
    {left : Expression} (within : input.length < limit) (shorter : input.length ≤ size) :
    (chain inner bound start limit left).Accepts input tree rest ↔
      ReadsChain bound start left input tree rest := by
  induction limit generalizing input left with
  | zero => omega
  | succ limit ih =>
      rcases input with _ | ⟨failure | ⟨kind, place⟩, later⟩
      · constructor
        · rintro ⟨rfl, rfl⟩
          exact .stop trivial
        · intro derived
          cases derived
          exact ⟨rfl, rfl⟩
      · constructor
        · intro accepted
          cases accepted
        · intro derived
          cases derived
          contradiction
      simp only [List.length_cons] at within shorter
      rw [chain_turn]
      constructor
      · rintro (⟨stops, rfl, rfl⟩ |
          ⟨operator, right, middle, stands, between, tighter, found, following⟩)
        · exact .stop stops
        · have derived := (faithful.required (by omega)).mp found
          have left := derived.takes.length_le
          exact .extend stands between tighter derived ((ih (by omega) (by omega)).mp following)
      · intro derived
        cases derived with
        | stop ahead => exact .inl ⟨ahead, rfl, rfl⟩
        | extend stands between tighter following others =>
            have left := following.takes.length_le
            exact .inr ⟨_, _, _, stands, between, tighter,
              (faithful.required (by omega)).mpr following, (ih (by omega) (by omega)).mpr others⟩

/-! ### Whole expressions -/

/-- An expression that begins with the word of a statement is that statement, and
accesses behind it. -/
theorem Faithful.statementThen (faithful : Faithful inner size) {bound : Precedence}
    {token : Token} {statement : Reading Expression}
    (word : token.kind = .keyword .return ∨ token.kind = .keyword .if ∨
      token.kind = .keyword .while)
    (formed : ∀ {first : Expression} {middle : List TokenItem},
      statement.Accepts (.ok token :: input) first middle ↔
        ReadsStatement token input first middle)
    (within : input.length < limit) (shorter : input.length ≤ size) :
    (statementThen inner limit token.location statement).Accepts
      (.ok token :: input) (some tree) rest ↔
        ReadsExpression bound (.ok token :: input) tree rest := by
  unfold Grammar.statementThen
  simp only [accepts_bind, accepts_pure]
  constructor
  · rintro ⟨first, middle, form, accessed, _, following, same, rfl⟩
    cases same
    have derived := formed.mp form
    have left := derived.shorter
    exact .statement derived ((faithful.accesses (by omega) (by omega)).mp following)
  · intro derived
    cases derived with
    | statement form following =>
        have left := form.shorter
        exact ⟨_, _, formed.mpr form, tree, rest,
          (faithful.accesses (by omega) (by omega)).mpr following, rfl, rfl⟩
    | separator _ => simp at word
    | brace => simp at word
    | operand form _ _ =>
        cases form with
        | unary stands _ _ => rcases word with rfl | rfl | rfl <;> cases stands
        | _ => simp at word

theorem Faithful.startingWith (faithful : Faithful inner size) {bound : Precedence}
    {token : Token} (within : input.length < limit) (shorter : input.length < size) :
    (startingWith inner limit bound token).Accepts (.ok token :: input) (some tree) rest ↔
      ReadsExpression bound (.ok token :: input) tree rest := by
  obtain ⟨kind, place⟩ := token
  unfold Grammar.startingWith
  dsimp only
  split
  · rw [accepts_skip_token]
    constructor
    · intro following
      exact .separator ((faithful shorter).mp following)
    · intro derived
      cases derived with
      | separator following => exact (faithful shorter).mpr following
      | statement form _ => cases form
      | operand form _ _ => cases form; contradiction
  · rw [accepts_pure]
    constructor
    · rintro ⟨same, rfl⟩
      cases same
      exact .brace
    · intro derived
      cases derived with
      | brace => exact ⟨rfl, rfl⟩
      | statement form _ => cases form
      | operand form _ _ => cases form; contradiction
  · exact faithful.statementThen (.inl rfl) (faithful.resultForm shorter) within (by omega)
  · exact faithful.statementThen (.inr (.inl rfl)) (faithful.conditionalForm within shorter)
      within (by omega)
  · exact faithful.statementThen (.inr (.inr rfl)) (faithful.loopForm within shorter)
      within (by omega)
  · rename_i notSemicolon notBrace notReturn notIf notWhile
    simp only [accepts_bind, accepts_pure]
    constructor
    · rintro ⟨first, behind, form, left, middle, accessed, whole, _, chained, same, rfl⟩
      cases same
      have derived := (faithful.operand within shorter).mp form
      have lessBehind := derived.shorter
      have following := (faithful.accesses (by omega) (by omega)).mp accessed
      obtain ⟨_, taken, _⟩ := following.takes
      have lessMiddle := taken.length_le
      exact .operand derived following ((faithful.chain (by omega) (by omega)).mp chained)
    · intro derived
      cases derived with
      | separator _ => exact (notSemicolon rfl).elim
      | brace => exact (notBrace rfl).elim
      | statement form _ => cases form <;> contradiction
      | operand form accessed chained =>
          have lessBehind := form.shorter
          obtain ⟨_, taken, _⟩ := accessed.takes
          have lessMiddle := taken.length_le
          exact ⟨_, _, (faithful.operand within shorter).mpr form, _, _,
            (faithful.accesses (by omega) (by omega)).mpr accessed, tree, rest,
            (faithful.chain (by omega) (by omega)).mpr chained, rfl, rfl⟩

/-- A limit above the number of items is no limit. -/
theorem expression_faithful (limit : Nat) : Faithful (expression limit) limit := by
  induction limit with
  | zero =>
      intro bound input rest tree shorter
      exact absurd shorter (Nat.not_lt_zero _)
  | succ limit ih =>
      intro bound input rest tree shorter
      rcases input with _ | ⟨failure | token, later⟩
      · constructor
        · rintro ⟨same, _⟩
          cases same
        · intro derived
          cases derived
      · constructor
        · intro accepted
          cases accepted
        · intro derived
          cases derived
      rw [expression, accepts_peek_token]
      simp only [List.length_cons] at shorter
      exact ih.startingWith (by omega) (by omega)

theorem startingWith_accepts_none {bound : Precedence} {token : Token}
    (accepted : (startingWith inner limit bound token).Accepts input none rest) :
    token.kind = .mark .semicolon := by
  unfold startingWith at accepted
  split at accepted
  · assumption
  · cases accepted.1
  all_goals
    simp only [statementThen, accepts_bind, accepts_pure, reduceCtorEq, false_and, and_false,
      exists_const] at accepted

theorem expression_accepts_none {bound : Precedence} (within : input.length < limit) :
    (expression limit bound).Accepts input none rest ↔ OnlySeparators input ∧ rest = [] := by
  induction limit generalizing input with
  | zero => exact absurd within (Nat.not_lt_zero _)
  | succ limit ih =>
      rcases input with _ | ⟨failure | ⟨kind, place⟩, later⟩
      · constructor
        · rintro ⟨_, rfl⟩
          exact ⟨by simp [OnlySeparators], rfl⟩
        · rintro ⟨_, rfl⟩
          exact ⟨rfl, rfl⟩
      · constructor
        · intro accepted
          cases accepted
        · rintro ⟨separators, _⟩
          obtain ⟨_, same⟩ := separators _ List.mem_cons_self
          cases same
      rw [expression, accepts_peek_token]
      simp only [List.length_cons] at within
      by_cases separator : kind = .mark .semicolon
      · subst separator
        simp only [startingWith, accepts_skip_token]
        constructor
        · intro following
          obtain ⟨separators, ended⟩ := (ih (by omega)).mp following
          exact ⟨List.forall_mem_cons.mpr ⟨⟨place, rfl⟩, separators⟩, ended⟩
        · rintro ⟨separators, ended⟩
          have others := (List.forall_mem_cons.mp separators).2
          exact (ih (by omega)).mpr ⟨others, ended⟩
      · constructor
        · intro accepted
          exact absurd (startingWith_accepts_none accepted) separator
        · rintro ⟨separators, _⟩
          obtain ⟨_, same⟩ := separators _ List.mem_cons_self
          cases same
          exact absurd rfl separator

end Grammar

/-! ### Parsers -/

theorem ok_of_map_cons {outcome : Except SyntaxError (List Expression)} {tree : Expression}
    {trees : List Expression} (finished : outcome.map (tree :: ·) = .ok trees) :
    ∃ others, outcome = .ok others ∧ trees = tree :: others := by
  cases outcome with
  | error failure => cases finished
  | ok others =>
      cases finished
      exact ⟨others, rfl, rfl⟩

namespace Parser

open Grammar

variable {σ : Type} [Source σ TokenItem] [LawfulSource σ] {parser after : Parser σ}
  {bound : Precedence} {tree : Expression} {rest : List TokenItem}

theorem pending_within (parser : Parser σ) :
    parser.pending.length < parser.remaining + 1 :=
  Nat.lt_succ_of_le parser.pending_length_le

theorem reads_of_expression (parsed : parser.expression bound = (.ok (some tree), after)) :
    ReadsExpression bound parser.pending tree after.pending :=
  (expression_faithful _ (pending_within parser)).mp (Reading.accepts_of_run parsed)

theorem expression_of_reads (derived : ReadsExpression bound parser.pending tree rest) :
    ∃ after, parser.expression bound = (.ok (some tree), after) ∧ after.pending = rest :=
  Reading.run_of_accepts ((expression_faithful _ (pending_within parser)).mpr derived)

theorem expression_none_iff :
    (∃ after, parser.expression bound = (.ok none, after)) ↔ OnlySeparators parser.pending := by
  constructor
  · rintro ⟨after, parsed⟩
    exact ((expression_accepts_none (pending_within parser)).mp
      (Reading.accepts_of_run parsed)).1
  · intro separators
    have accepted : (Grammar.expression (parser.remaining + 1) bound).Accepts
        parser.pending none [] :=
      (expression_accepts_none (pending_within parser)).mpr ⟨separators, rfl⟩
    obtain ⟨after, parsed, _⟩ := Reading.run_of_accepts accepted
    exact ⟨after, parsed⟩

inductive ProgramStep {σ : Type} [Source σ TokenItem] (note : Expression → σ → σ) (limit : Nat)
    (parser : Parser σ) : Except SyntaxError (List Expression) × Parser σ → Prop where
  | failed {failure : SyntaxError} {after : Parser σ}
      (parsed : parser.expression .lowest = (.error failure, after)) :
      ProgramStep note limit parser (.error failure, after)
  | ended {after : Parser σ} (parsed : parser.expression .lowest = (.ok none, after)) :
      ProgramStep note limit parser (.ok [], after)
  | stray {place : Location} {after : Parser σ}
      (parsed : parser.expression .lowest = (.ok (some (.void place)), after)) :
      ProgramStep note limit parser
        (.error ⟨place, .unexpectedToken (.mark .rightBrace)⟩, after)
  | element {tree : Expression} {after : Parser σ}
      (parsed : parser.expression .lowest = (.ok (some tree), after))
      (solid : tree.isVoid = false) :
      ProgramStep note limit parser
        ((programWithin note limit (after.noting note tree)).1.map (tree :: ·),
          (programWithin note limit (after.noting note tree)).2)

section Steps

variable {σ : Type} [Source σ TokenItem] {parser after : Parser σ} {tree : Expression}

theorem programWithin_some {note : Expression → σ → σ} {limit : Nat}
    (parsed : parser.expression .lowest = (.ok (some tree), after))
    (solid : tree.isVoid = false) :
    programWithin note (limit + 1) parser =
      ((programWithin note limit (after.noting note tree)).1.map (tree :: ·),
        (programWithin note limit (after.noting note tree)).2) := by
  rw [programWithin, parsed]
  cases tree with
  | void place => cases solid
  | _ => rfl

theorem programWithin_step (note : Expression → σ → σ) (limit : Nat) (parser : Parser σ) :
    ProgramStep note limit parser (programWithin note (limit + 1) parser) := by
  rcases parsed : parser.expression .lowest with ⟨failure | _ | tree, after⟩
  · rw [programWithin, parsed]
    exact .failed parsed
  · rw [programWithin, parsed]
    exact .ended parsed
  · cases solid : tree.isVoid with
    | false =>
        rw [programWithin_some parsed solid]
        exact .element parsed solid
    | true =>
        cases tree with
        | void place =>
            rw [programWithin, parsed]
            exact .stray parsed
        | _ => cases solid

theorem programNoting_ok {note : Expression → σ → σ} {program : Program} :
    (parser.programNoting note).1 = .ok program ↔
      (programWithin note (parser.remaining + 1) parser).1 = .ok program.expressions := by
  unfold programNoting
  dsimp only
  cases (programWithin note (parser.remaining + 1) parser).1 with
  | error failure => exact ⟨nofun, nofun⟩
  | ok trees =>
      constructor
      · rintro ⟨⟩
        rfl
      · rintro ⟨⟩
        rfl

end Steps

private theorem reads_of_programWithin {limit : Nat} {trees : List Expression}
    (within : parser.pending.length < limit)
    (finished : (programWithin silent limit parser).1 = .ok trees) :
    ReadsProgram parser.pending trees := by
  induction limit generalizing parser trees with
  | zero => exact absurd within (Nat.not_lt_zero _)
  | succ limit ih =>
      have step := programWithin_step silent limit parser
      generalize programWithin silent (limit + 1) parser = answered at step finished
      cases step with
      | failed parsed => cases finished
      | stray parsed => cases finished
      | ended parsed =>
          cases finished
          exact .finish (expression_none_iff.mp ⟨_, parsed⟩)
      | element parsed solid =>
          have derived := reads_of_expression parsed
          have progress := derived.shorter solid
          obtain ⟨others, read, rfl⟩ := ok_of_map_cons finished
          exact .expression derived solid (ih (Nat.lt_of_lt_of_le progress
            (Nat.le_of_lt_succ within)) read)

private theorem programWithin_of_reads {limit : Nat} {input : List TokenItem}
    {trees : List Expression} (derived : ReadsProgram input trees)
    (pending : parser.pending = input) (within : input.length < limit) :
    (programWithin silent limit parser).1 = .ok trees := by
  induction derived generalizing parser limit with
  | finish separators =>
      subst pending
      obtain ⟨behind, parsed⟩ := expression_none_iff.mpr separators
      cases limit with
      | zero => exact absurd within (Nat.not_lt_zero _)
      | succ limit =>
          rw [programWithin, parsed]
  | expression following solid _ ih =>
      subst pending
      have progress := following.shorter solid
      obtain ⟨behind, parsed, left⟩ := expression_of_reads following
      cases limit with
      | zero => exact absurd within (Nat.not_lt_zero _)
      | succ limit =>
          rw [programWithin_some parsed solid]
          exact congrArg (Except.map _) (ih left (by omega))

/-- A program is parsed exactly where a row of expressions can be derived. -/
theorem program_iff {program : Program} :
    parser.program.1 = .ok program ↔ ReadsProgram parser.pending program.expressions := by
  rw [Parser.program, programNoting_ok]
  exact ⟨reads_of_programWithin (pending_within parser),
    fun derived => programWithin_of_reads derived rfl (pending_within parser)⟩

end Parser

/-- A list of tokens is a program exactly where a row of expressions can be derived. -/
theorem parseTokens_iff {tokens : List Token} {program : Program} :
    parseTokens tokens = .ok program ↔
      Grammar.ReadsProgram (tokens.map .ok) program.expressions := by
  unfold parseTokens
  rw [Parser.program_iff]
  unfold Parser.ofSource
  rw [Lookahead.pending_ofSource, Source.items_list]

end Shading
