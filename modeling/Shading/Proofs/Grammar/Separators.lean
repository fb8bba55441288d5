import Shading.Proofs.Grammar.Program
import Shading.Proofs.Grammar.Respacing

/-!
The forms of the grammar tolerate repeated separators.

Only expressions drop separators, so a form tolerates them if the expressions in it do.
Every other token that a form takes is refused if it is a separator, but for the role of a
value of the pipeline.
-/

namespace Shading.Grammar

open Reading

variable {loose : Prop} {inner : Inner} {size limit : Nat} {bound : Precedence}
  {token : Token} {start : Location}

/-- Inner expressions that tolerate repeated separators. They show nothing at the end, and a
brace is left where they show the empty expression. -/
structure Tolerant (loose : Prop) (size : Nat) (inner : Inner) : Prop where
  tolerates : ∀ bound, Tolerates loose size (inner bound)
  ended : ∀ bound seen, ((inner bound).course ⟨seen, []⟩).1 = .ok none
  brace : ∀ {bound : Precedence} {seen : Bool} {left : List Token} {tree : Expression}
    {stopped : Standing}, (inner bound).course ⟨seen, left⟩ = (.ok (some tree), stopped) →
      left.length < size → tree.isVoid = true →
        ∃ place later, stopped.rest = ⟨.mark .rightBrace, place⟩ :: later

namespace Tolerant

theorem required (tolerant : Tolerant loose size inner) :
    Tolerates loose size (required inner bound) := by
  apply (tolerant.tolerates bound).bind
  intro answer
  cases answer with
  | none => exact tolerates_failAtLast _
  | some tree => exact tolerates_pure tree

theorem required_ok {standing stopped : Standing} {tree : Expression}
    (ran : (Grammar.required inner bound).course standing = (.ok tree, stopped)) :
    (inner bound).course standing = (.ok (some tree), stopped) := by
  rw [Grammar.required, course_bind] at ran
  rcases found : (inner bound).course standing with ⟨fault | _ | found, behind⟩
  · rw [found] at ran
    cases ran
  · rw [found] at ran
    cases ran
  · rw [found] at ran
    cases ran
    rfl

theorem required_spare (tolerant : Tolerant loose size inner) {seen : Bool} {left : List Token}
    (respaced : Respaced loose left []) (shorter : left.length < size) :
    ∃ stopped, (Grammar.required inner bound).course ⟨seen, left⟩ =
      (.error .expectedExpression, stopped) := by
  have agree := (tolerant.tolerates bound).agree seen false respaced shorter
  have ended := tolerant.ended bound false
  have none : ((inner bound).course ⟨seen, left⟩).1 = .ok none := by
    rcases ran : (inner bound).course ⟨seen, left⟩ with ⟨_, stopped⟩
    rcases ranOther : (inner bound).course ⟨false, []⟩ with ⟨_, stoppedOther⟩
    rw [ran, ranOther] at agree
    rw [ranOther] at ended
    cases ended
    cases agree
    rfl
  rcases ran : (inner bound).course ⟨seen, left⟩ with ⟨_, stopped⟩
  rw [ran] at none
  cases none
  refine ⟨stopped, ?_⟩
  rw [Grammar.required, course_bind, ran]
  rfl

/-! ### Operands -/

theorem arguments (tolerant : Tolerant loose size inner) {standing : ArgumentPlace} :
    Tolerates loose size (arguments inner limit standing) := by
  induction limit generalizing standing with
  | zero => exact tolerates_pure []
  | succ limit ih =>
      have argument : Tolerates loose size (do
          let argument ← Grammar.required inner .lowest
          let others ← Grammar.arguments inner limit .afterArgument
          pure (argument :: others)) :=
        tolerant.required.bind fun _ => ih.bind fun _ => tolerates_pure _
      rw [arguments_succ]
      apply tolerates_peek
      · intro token left right solid behind shorter
        have less := Nat.lt_of_succ_lt shorter
        cases argumentTurn standing (some token) with
        | ended => exact .failed (.inr (.inl rfl))
        | close => exact (Proceeds.skip (tolerates_pure [])).agree behind less
        | comma => exact (Proceeds.skip ih).agree behind less
        | argument => exact argument.agree _ _ (.token solid behind) shorter
        | refuse failure => exact .failed (.inr (.inl rfl))
      · rintro ⟨_, first⟩ ⟨_, second⟩ left right ⟨⟩ ⟨⟩ respaced shorter
        cases standing with
        | afterArgument => exact .failed (.inr (.inl rfl))
        | _ => exact argument.agree _ _ respaced shorter
      · rintro free ⟨_, place⟩ left ⟨⟩ respaced shorter
        cases standing with
        | afterArgument => exact .failed (.inl free)
        | _ =>
            obtain ⟨stopped, failed⟩ := tolerant.required_spare respaced shorter
            dsimp only [argumentTurn]
            rw [course_bind_error failed]
            exact .failed (.inl free)

theorem callForm (tolerant : Tolerant loose size inner) {name : String} :
    Proceeds loose size token (callForm inner limit name start) := by
  have opened : Tolerates loose size (do
      let _ ← expect (.mark .leftParenthesis)
      let values ← Grammar.arguments inner limit .atFirst
      pure (Expression.call name values start)) :=
    (tolerates_expect (by decide)).bind fun _ => tolerant.arguments.bind fun _ =>
      tolerates_pure _
  apply Proceeds.skip
  apply tolerates_peek
  · intro token left right solid behind shorter
    exact opened.agree _ _ (.token solid behind) shorter
  · intro first second left right _ _ respaced shorter
    exact opened.agree _ _ respaced shorter
  · rintro free ⟨_, place⟩ left ⟨⟩ respaced shorter
    exact .failed (.inl free)

theorem unaryForm (tolerant : Tolerant loose size inner) {operator : Operator} :
    Proceeds loose size token (unaryForm inner operator start) := by
  apply Proceeds.skip
  split
  · exact tolerant.required.bind fun _ => tolerates_pure _
  · exact tolerates_fail _

theorem parenthesizedForm (tolerant : Tolerant loose size inner) :
    Proceeds loose size token (parenthesizedForm inner start) :=
  Proceeds.skip (tolerant.required.bind fun _ =>
    (tolerates_expect (by decide)).bind fun _ => tolerates_pure _)

end Tolerant

theorem variableForm_proceeds : Proceeds loose size token (variableForm start) := by
  apply Proceeds.skip
  apply tolerates_next (.unsupportedType (.mark .semicolon))
  · intro typeToken
    cases variableType? typeToken.kind with
    | none => exact tolerates_fail _
    | some type => exact tolerates_expectName.bind fun _ => tolerates_pure _
  · intro place standing
    rfl

theorem pipelineForm_eq : pipelineForm start = (do
    Reading.skip
    let role ← Reading.next
    let named ← expectName
    (pipelineRole? role.kind).elim (unexpected role) fun found =>
      pure (.pipeline found named.1 start)) := by
  unfold pipelineForm
  congr 1
  funext _
  congr 1
  funext role
  congr 1
  funext named
  cases pipelineRole? role.kind <;> rfl

/-- A separator is no role, whatever follows it. This is noticed behind a name. -/
theorem pipelineForm_separator {sign : Location} (place : Location) (later : List Token) :
    ∃ fault stopped, (pipelineForm start).course
        ⟨true, ⟨.mark .at, sign⟩ :: ⟨.mark .semicolon, place⟩ :: later⟩ = (.error fault, stopped) ∧
      (fault = .unexpectedToken (.mark .semicolon) ∨
        fault = .refusing later.head? ∧ NotAhead (.mark .semicolon) later ∧
          ∀ name, NotAhead (.name name) later) := by
  rcases later with _ | ⟨⟨kind, found⟩, later⟩
  · exact ⟨_, _, rfl, .inr ⟨rfl, nofun, nofun⟩⟩
  by_cases separator : kind = .mark .semicolon
  · subst separator
    exact ⟨_, _, rfl, .inl rfl⟩
  have maximal : NotAhead (.mark .semicolon) (⟨kind, found⟩ :: later) := by
    rintro token ⟨⟩
    exact separator
  cases kind with
  | name name => exact ⟨_, _, rfl, .inl rfl⟩
  | _ =>
      refine ⟨_, _, rfl, .inr ⟨rfl, maximal, ?_⟩⟩
      rintro name token ⟨⟩
      exact nofun

/-- The one form that is read differently: where two separators stand for a role and a name,
it stumbles. -/
theorem pipelineForm_proceeds (signed : token.kind = .mark .at) :
    Proceeds loose size token (pipelineForm start) := by
  constructor
  intro left right respaced shorter
  obtain ⟨_, sign⟩ := token
  cases signed
  cases respaced with
  | nothing => exact .failed (.inr (.inl rfl))
  | @token role left right solid behind =>
      have judged : Tolerates loose size (expectName >>= fun named =>
          (pipelineRole? role.kind).elim (unexpected role) fun found =>
            pure (Expression.pipeline found named.1 start)) := by
        apply tolerates_expectName.bind
        intro named
        cases pipelineRole? role.kind with
        | none => exact tolerates_fail _
        | some found => exact tolerates_pure _
      have named := judged.agree false false behind (Nat.lt_of_succ_lt shorter)
      rw [pipelineForm_eq]
      exact named.lift ⟨[⟨.mark .at, sign⟩, role], rfl⟩
  | @separator first second left right behind =>
      have named := tolerates_expectName.agree false false behind (Nat.lt_of_succ_lt shorter)
      have judged : Agree loose size left
          ((expectName >>= fun _ => unexpected ⟨.mark .semicolon, first⟩ :
            Reading Expression).course ⟨false, left⟩)
          ((expectName >>= fun _ => unexpected ⟨.mark .semicolon, second⟩).course
            ⟨false, right⟩) :=
        named.bind fun _ _ _ => .failed (.inr (.inl rfl))
      exact judged.lift ⟨[⟨.mark .at, sign⟩, ⟨.mark .semicolon, first⟩], rfl⟩
  | @repeated first second left right behind =>
      obtain ⟨fault, stopped, failed, told⟩ := pipelineForm_separator second right
      rw [failed]
      rcases told with rfl | ⟨rfl, maximal, nameless⟩
      · cases behind.abreast with
        | token solid _ => exact absurd rfl solid
        | separators => exact .failed (.inr (.inl rfl))
      · obtain ⟨third, run, rest, rfl, only, ahead⟩ := behind.run_ahead maximal
        unfold NotAhead at maximal nameless
        rw [← ahead] at maximal nameless ⊢
        exact .failed (.inr (.inr
          (@Stumbled.behindSign [] run rest sign first third only maximal nameless)))
  | @spare place separators free only =>
      obtain ⟨fault, stopped, failed, _⟩ := pipelineForm_separator place separators
      rw [failed]
      exact .failed (.inl free)

theorem singleForm_proceeds {tree : Expression} :
    Proceeds loose size token (singleForm tree) := Proceeds.skip (tolerates_pure tree)

namespace Tolerant

theorem operand (tolerant : Tolerant loose size inner) :
    Proceeds loose size token (operand inner limit token) := by
  rw [operand_eq]
  cases turn : operandTurn token.kind with
  | call name => exact tolerant.callForm
  | declaration => exact variableForm_proceeds
  | pipeline =>
      apply pipelineForm_proceeds
      apply operandTurn_kind?
      rw [turn]
      rfl
  | parenthesized => exact tolerant.parenthesizedForm
  | number value => exact singleForm_proceeds
  | truth value => exact singleForm_proceeds
  | unary operator => exact tolerant.unaryForm
  | refuse => exact ⟨fun _ _ => .failed (.inr (.inl rfl))⟩

/-! ### Statements -/

theorem blockRest (tolerant : Tolerant loose size inner) :
    Tolerates loose size (blockRest inner limit) := by
  induction limit with
  | zero => exact tolerates_pure []
  | succ limit ih =>
      have element : Tolerates loose size (do
          let expression ← Grammar.required inner .lowest
          if expression.isVoid then
            skip
            pure []
          else
            let others ← Grammar.blockRest inner limit
            pure (expression :: others)) := by
        constructor
        intro left right seen seenOther respaced shorter
        apply (tolerant.required.agree _ _ respaced shorter).bind
        intro tree here there rest otherRest ran behind less
        split
        · rename_i empty
          -- The empty expression shows the brace that closes the block.
          obtain ⟨place, later, ahead⟩ := tolerant.brace (required_ok ran) shorter empty
          cases ahead
          cases behind.abreast with
          | token solid spaced => exact .answered spaced (Nat.lt_of_succ_lt less)
        · exact (ih.bind fun _ => tolerates_pure _).agree _ _ behind less
      rw [Grammar.blockRest]
      apply tolerates_peek
      · intro token left right solid behind shorter
        exact element.agree _ _ (.token solid behind) shorter
      · intro first second left right _ _ respaced shorter
        exact element.agree _ _ respaced shorter
      · intro free token left _ respaced shorter
        obtain ⟨stopped, failed⟩ := tolerant.required_spare respaced shorter
        dsimp only
        rw [course_bind_error failed]
        exact .failed (.inl free)

theorem block (tolerant : Tolerant loose size inner) :
    Tolerates loose size (block inner limit) :=
  (tolerates_expect (by decide)).bind fun _ => tolerant.blockRest

theorem condition (tolerant : Tolerant loose size inner) :
    Tolerates loose size (condition inner) :=
  (tolerates_expect (by decide)).bind fun _ => tolerant.required.bind fun _ =>
    (tolerates_expect (by decide)).bind fun _ => tolerates_pure _

theorem arm (tolerant : Tolerant loose size inner) : Tolerates loose size (arm inner limit) :=
  tolerant.condition.bind fun _ => tolerant.block.bind fun _ => tolerates_pure _

theorem furtherArms (tolerant : Tolerant loose size inner) {blockLimit : Nat} :
    Tolerates loose size (furtherArms inner blockLimit limit) := by
  induction limit with
  | zero => exact tolerates_pure _
  | succ limit ih =>
      rw [furtherArms_succ]
      apply tolerates_peek_stopping ([], none) rfl fun _ => rfl
      intro token left right solid behind shorter
      have less := Nat.lt_of_succ_lt shorter
      cases armTurn (some token) with
      | stop => exact (tolerates_pure _).agree _ _ (.token solid behind) shorter
      | further =>
          exact (Proceeds.skip
            (tolerant.arm.bind fun _ => ih.bind fun _ => tolerates_pure _)).agree behind less
      | last =>
          exact (Proceeds.skip (tolerant.block.bind fun _ => tolerates_pure _)).agree behind less

theorem resultForm (tolerant : Tolerant loose size inner) :
    Proceeds loose size token (resultForm inner start) :=
  Proceeds.skip (tolerant.required.bind fun _ => tolerates_pure _)

theorem conditionalForm (tolerant : Tolerant loose size inner) :
    Proceeds loose size token (conditionalForm inner limit start) :=
  Proceeds.skip (tolerant.arm.bind fun _ => tolerant.furtherArms.bind fun _ => tolerates_pure _)

theorem loopForm (tolerant : Tolerant loose size inner) :
    Proceeds loose size token (loopForm inner limit start) :=
  Proceeds.skip (tolerant.arm.bind fun _ => tolerates_pure _)

/-! ### Behind an operand -/

theorem accesses (tolerant : Tolerant loose size inner) {left : Expression} :
    Tolerates loose size (accesses inner start limit left) := by
  induction limit generalizing left with
  | zero => exact tolerates_pure left
  | succ limit ih =>
      rw [accesses_succ]
      apply tolerates_peek_stopping left rfl fun _ => rfl
      intro token left right solid behind shorter
      have less := Nat.lt_of_succ_lt shorter
      cases accessTurn (some token) with
      | stop => exact (tolerates_pure _).agree _ _ (.token solid behind) shorter
      | member => exact (Proceeds.skip (tolerates_expectName.bind fun _ => ih)).agree behind less
      | index =>
          exact (Proceeds.skip (tolerant.required.bind fun _ =>
            (tolerates_expect (by decide)).bind fun _ => ih)).agree behind less

theorem chain (tolerant : Tolerant loose size inner) {left : Expression} :
    Tolerates loose size (chain inner bound start limit left) := by
  induction limit generalizing left with
  | zero => exact tolerates_pure left
  | succ limit ih =>
      rw [chain_succ]
      apply tolerates_peek_stopping left rfl fun _ => rfl
      intro token left right solid behind shorter
      cases chainTurn bound (some token) with
      | stop => exact (tolerates_pure _).agree _ _ (.token solid behind) shorter
      | refuse failure => exact .failed (.inr (.inl rfl))
      | extend operator =>
          exact (Proceeds.skip (tolerant.required.bind fun _ => ih)).agree behind
            (Nat.lt_of_succ_lt shorter)

theorem statementThen (tolerant : Tolerant loose size inner) {statement : Reading Expression}
    (proceeds : Proceeds loose size token statement) :
    Proceeds loose size token (statementThen inner limit start statement) :=
  proceeds.bind fun _ => tolerant.accesses.bind fun _ => tolerates_pure _

/-! ### Whole expressions -/

theorem startingWith (tolerant : Tolerant loose size inner) (solid : token.kind ≠ .mark .semicolon)
    {left right : List Token} (behind : Respaced loose left right)
    (shorter : left.length < size) :
    Agree loose (size + 1) (token :: left)
      ((startingWith inner limit bound token).course ⟨true, token :: left⟩)
      ((startingWith inner limit bound token).course ⟨true, token :: right⟩) := by
  rw [startingWith_eq]
  cases turn : startTurn token.kind with
  | separator =>
      have separator : token.kind = .mark .semicolon := startTurn_kind? (by rw [turn]; rfl)
      exact absurd separator solid
  | brace => exact .answered (.token solid behind) (Nat.succ_lt_succ shorter)
  | result =>
      apply Agree.mono _ (Nat.le_succ size)
      exact (tolerant.statementThen tolerant.resultForm).agree behind shorter
  | conditional =>
      apply Agree.mono _ (Nat.le_succ size)
      exact (tolerant.statementThen tolerant.conditionalForm).agree behind shorter
  | loop =>
      apply Agree.mono _ (Nat.le_succ size)
      exact (tolerant.statementThen tolerant.loopForm).agree behind shorter
  | operand =>
      apply Agree.mono _ (Nat.le_succ size)
      exact (tolerant.operand.bind fun _ => tolerant.accesses.bind fun _ =>
        tolerant.chain.bind fun _ => tolerates_pure _).agree behind shorter

end Tolerant

/-! ### Expressions over tokens -/

variable {another : Nat} {tokens : List Token} {seen : Bool}

/-- Above the number of tokens the limit of an expression never shows. -/
theorem expression_course_alike (within : tokens.length < limit)
    (withinOther : tokens.length < another) :
    ((expression limit bound).course ⟨seen, tokens⟩).1 =
        ((expression another bound).course ⟨seen, tokens⟩).1 ∧
      ((expression limit bound).course ⟨seen, tokens⟩).2.rest =
        ((expression another bound).course ⟨seen, tokens⟩).2.rest := by
  have stands := Standing.of_list tokens seen
  have shorter : (Parser.ofSource (tokens.map Except.ok : List TokenItem)).pending.length <
      min limit another := by
    rw [stands.left, List.length_map]
    exact Nat.lt_min.mpr ⟨within, withinOther⟩
  have same : (expression limit bound).run
        (Parser.ofSource (tokens.map Except.ok : List TokenItem)) =
      (expression another bound).run (Parser.ofSource (tokens.map Except.ok : List TokenItem)) :=
    (expression_alike limit another).same shorter
  obtain ⟨answer, left⟩ := (expression limit bound).run_course stands
  obtain ⟨answerOther, leftOther⟩ := (expression another bound).run_course stands
  rw [same] at answer left
  refine ⟨answer.symm.trans answerOther, ?_⟩
  have rests := left.left.symm.trans leftOther.left
  exact (List.map_inj_right fun _ _ => Except.ok.inj).mp rests

theorem reads_of_course {tree : Expression} {stopped : Standing} (within : tokens.length < limit)
    (ran : (expression limit bound).course ⟨seen, tokens⟩ = (.ok (some tree), stopped)) :
    ReadsExpression bound (tokens.map .ok) tree (stopped.rest.map .ok) := by
  have stands := Standing.of_list tokens seen
  obtain ⟨answer, left⟩ := (expression limit bound).run_course stands
  rw [ran] at answer left
  rcases outcome : (expression limit bound).run
    (Parser.ofSource (tokens.map Except.ok : List TokenItem)) with ⟨failure | found, after⟩
  · rw [outcome] at answer
    cases answer
  · rw [outcome] at answer left
    cases answer
    have accepted := Reading.accepts_of_run outcome
    rw [stands.left, left.left] at accepted
    exact (expression_faithful limit (by rw [List.length_map]; exact within)).mp accepted

theorem expression_ended : ((expression limit bound).course ⟨seen, []⟩).1 = .ok none := by
  cases limit <;> rfl

theorem expression_brace {tree : Expression} {stopped : Standing}
    (ran : (expression limit bound).course ⟨seen, tokens⟩ = (.ok (some tree), stopped))
    (within : tokens.length < limit) (empty : tree.isVoid = true) :
    ∃ place later, stopped.rest = ⟨.mark .rightBrace, place⟩ :: later := by
  obtain ⟨place, later, _, ahead⟩ := (reads_of_course within ran).brace_ahead empty
  obtain ⟨token, others, split, first, _⟩ := List.map_eq_cons_iff.mp ahead
  cases first
  exact ⟨place, others, split⟩

theorem expression_tolerates (tolerant : Tolerant loose limit (expression limit)) :
    Tolerates loose (limit + 1) (expression (limit + 1) bound) := by
  constructor
  intro left right seen seenOther respaced shorter
  -- Behind a separator that only the first list has, the second one is still where it was.
  have dropped : ∀ {place : Location} {left right : List Token}, Respaced loose left right →
      left.length < limit →
        Agree loose (limit + 1) (⟨.mark .semicolon, place⟩ :: left)
          ((expression (limit + 1) bound).course ⟨seen, ⟨.mark .semicolon, place⟩ :: left⟩)
          ((expression (limit + 1) bound).course ⟨seenOther, right⟩) := by
    intro place left right behind less
    have agree := (tolerant.tolerates bound).agree false seenOther behind less
    have fewer := Nat.lt_of_le_of_lt behind.length_le less
    obtain ⟨answer, rest⟩ := @expression_course_alike limit bound (limit + 1) right seenOther fewer
      (Nat.lt_succ_of_lt fewer)
    exact ((agree.congr answer rest).lift (List.suffix_cons _ left)).mono (Nat.le_succ limit)
  cases respaced with
  | nothing => exact .answered .nothing shorter
  | token solid behind => exact tolerant.startingWith solid behind (Nat.lt_of_succ_lt_succ shorter)
  | @separator first second left right behind =>
      have agree := (tolerant.tolerates bound).agree false false behind
        (Nat.lt_of_succ_lt_succ shorter)
      exact (agree.lift (List.suffix_cons _ left)).mono (Nat.le_succ limit)
  | repeated behind => exact dropped behind (Nat.lt_of_succ_lt_succ shorter)
  | spare free only => exact dropped (.of_separators free only) (Nat.lt_of_succ_lt_succ shorter)

theorem expression_tolerant (limit : Nat) : Tolerant loose limit (expression limit) := by
  induction limit with
  | zero =>
      refine ⟨fun bound => ⟨?_⟩, fun _ _ => expression_ended, expression_brace⟩
      intro left right seen seenOther _ shorter
      exact absurd shorter (Nat.not_lt_zero _)
  | succ limit ih =>
      exact ⟨fun _ => expression_tolerates ih, fun _ _ => expression_ended, expression_brace⟩

/-! ### Programs -/

theorem programForm_tolerates {count : Nat} : Tolerates loose limit (programForm limit count) := by
  induction count with
  | zero => exact tolerates_pure []
  | succ count ih =>
      apply ((expression_tolerant limit).tolerates .lowest).bind
      intro answer
      cases programTurn answer with
      | finish => exact tolerates_pure []
      | stray place => exact tolerates_fail _
      | element tree => exact ih.bind fun _ => tolerates_pure _

end Shading.Grammar
