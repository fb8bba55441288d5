import Shading.Grammar.Expression

/-!
What one look ahead decides.

Every form that looks ahead chooses among a few ways to go on. Here the ways are
named and told from the answer alone, and each form is written out as such a
choice, so that no proof behind this module goes through the kinds of tokens.
-/

namespace Shading.Grammar

variable {inner : Inner} {limit : Nat} {bound : Precedence} {start : Location}

/-! ### Accesses -/

inductive AccessTurn where
  | member
  | index
  | stop

def accessTurn : Option Token → AccessTurn
  | some ⟨.mark .dot, _⟩ => .member
  | some ⟨.mark .leftBracket, _⟩ => .index
  | _ => .stop

def AccessTurn.kind? : AccessTurn → Option Token.Kind
  | member => some (.mark .dot)
  | index => some (.mark .leftBracket)
  | stop => none

theorem accessTurn_kind? {token : Token} {kind : Token.Kind}
    (named : (accessTurn (some token)).kind? = some kind) : token.kind = kind := by
  obtain ⟨found, place⟩ := token
  cases found with
  | mark sign => cases sign <;> cases named <;> rfl
  | _ => cases named

theorem accesses_succ {left : Expression} :
    accesses inner start (limit + 1) left = (do
      match accessTurn (← Reading.peek) with
      | .member => do
        Reading.skip
        let (name, place) ← Reading.expectName
        accesses inner start limit (.binary .member left (.memberName name place) start)
      | .index => do
        Reading.skip
        let position ← required inner .lowest
        let _ ← Reading.expect (.mark .rightBracket)
        accesses inner start limit (.binary .index left position start)
      | .stop => pure left) := by
  rw [accesses]
  congr 1
  funext answer
  rcases answer with _ | ⟨kind, place⟩
  · rfl
  · cases kind with
    | mark sign => cases sign <;> rfl
    | _ => rfl

/-! ### Chains -/

inductive ChainTurn where
  | stop
  | extend (operator : Operator)
  | refuse (failure : SyntaxError)

def chainTurn (bound : Precedence) : Option Token → ChainTurn
  | none => .stop
  | some token =>
    if endsChain token.kind then
      .stop
    else
      match token.kind.operator? with
      | none => .refuse ⟨token.location, .unexpectedToken token.kind⟩
      | some operator =>
        if operator.standsBetween then
          if operator.precedence ≤ bound then .stop else .extend operator
        else
          .refuse ⟨token.location, .invalidInfixOperator operator⟩

theorem chain_succ {left : Expression} :
    chain inner bound start (limit + 1) left = (do
      match chainTurn bound (← Reading.peek) with
      | .stop => pure left
      | .extend operator => do
        Reading.skip
        let right ← required inner operator.precedence
        chain inner bound start limit (.binary operator left right start)
      | .refuse failure => .fail failure) := by
  rw [chain]
  congr 1
  funext answer
  cases answer with
  | none => rfl
  | some token =>
      unfold chainTurn
      dsimp only
      by_cases ends : endsChain token.kind = true
      · rw [if_pos ends, if_pos ends]
      · rw [if_neg ends, if_neg ends]
        cases token.kind.operator? with
        | none => rfl
        | some operator =>
            dsimp only
            by_cases between : operator.standsBetween = true
            · rw [if_pos between, if_pos between]
              by_cases looser : operator.precedence ≤ bound
              · rw [if_pos looser, if_pos looser]
              · rw [if_neg looser, if_neg looser]
            · rw [if_neg between, if_neg between]

/-- Behind an operand, an expression ends, goes on with an operator that binds tighter
than the bound, or refuses the token. -/
theorem chainTurn_cases (bound : Precedence) (token : Token) :
    chainTurn bound (some token) = .stop ∨
    (∃ operator, token.kind.operator? = some operator ∧ operator.standsBetween = true ∧
      bound < operator.precedence ∧ chainTurn bound (some token) = .extend operator) ∨
    ∃ fault, (fault = .unexpectedToken token.kind ∨
        ∃ operator, token.kind.operator? = some operator ∧
          fault = .invalidInfixOperator operator) ∧
      chainTurn bound (some token) = .refuse ⟨token.location, fault⟩ := by
  unfold chainTurn
  dsimp only
  by_cases ends : endsChain token.kind = true
  · exact .inl (if_pos ends)
  · rw [if_neg ends]
    cases token.kind.operator? with
    | none => exact .inr (.inr ⟨_, .inl rfl, rfl⟩)
    | some operator =>
        dsimp only
        by_cases between : operator.standsBetween = true
        · rw [if_pos between]
          by_cases looser : operator.precedence ≤ bound
          · exact .inl (if_pos looser)
          · exact .inr (.inl ⟨operator, rfl, between, Nat.not_le.mp looser, if_neg looser⟩)
        · exact .inr (.inr ⟨_, .inr ⟨operator, rfl, rfl⟩, if_neg between⟩)

theorem chainTurn_extend {token : Token} {operator : Operator}
    (turn : chainTurn bound (some token) = .extend operator) :
    token.kind.operator? = some operator ∧ operator.standsBetween = true ∧
      bound < operator.precedence := by
  rcases chainTurn_cases bound token with
    stop | ⟨found, stands, between, tighter, extend⟩ | ⟨fault, _, refuse⟩
  · rw [turn] at stop
    cases stop
  · rw [turn] at extend
    cases extend
    exact ⟨stands, between, tighter⟩
  · rw [turn] at refuse
    cases refuse

theorem chainTurn_refuse {answer : Option Token} {failure : SyntaxError}
    (turn : chainTurn bound answer = .refuse failure) :
    ∃ token, answer = some token ∧ failure.location = token.location ∧
      (failure.fault = .unexpectedToken token.kind ∨
        ∃ operator, token.kind.operator? = some operator ∧
          failure.fault = .invalidInfixOperator operator) := by
  cases answer with
  | none => cases turn
  | some token =>
      rcases chainTurn_cases bound token with
        stop | ⟨_, _, _, _, extend⟩ | ⟨fault, told, refuse⟩
      · rw [turn] at stop
        cases stop
      · rw [turn] at extend
        cases extend
      · rw [turn] at refuse
        cases refuse
        exact ⟨token, rfl, rfl, told⟩

/-! ### Arguments -/

inductive ArgumentTurn where
  | ended
  | close
  | comma
  | argument
  | refuse (failure : SyntaxError)

def argumentTurn : ArgumentPlace → Option Token → ArgumentTurn
  | _, none => .ended
  | standing, some token =>
    match token.kind, standing with
    | .mark .rightParenthesis, .afterComma =>
      .refuse ⟨token.location, .unexpectedToken token.kind⟩
    | .mark .rightParenthesis, _ => .close
    | .mark .comma, .afterArgument => .comma
    | .mark .comma, _ => .refuse ⟨token.location, .unexpectedToken token.kind⟩
    | _, .afterArgument => .refuse ⟨token.location, .unexpectedToken token.kind⟩
    | _, _ => .argument

theorem arguments_succ {standing : ArgumentPlace} :
    arguments inner (limit + 1) standing = (do
      match argumentTurn standing (← Reading.peek) with
      | .ended => Reading.failAtLast .unexpectedEnd
      | .close => do
        Reading.skip
        pure []
      | .comma => do
        Reading.skip
        arguments inner limit .afterComma
      | .argument => do
        let argument ← required inner .lowest
        let others ← arguments inner limit .afterArgument
        pure (argument :: others)
      | .refuse failure => .fail failure) := by
  rw [arguments]
  congr 1
  funext answer
  rcases answer with _ | ⟨kind, place⟩
  · rfl
  · cases kind with
    | mark sign => cases sign <;> cases standing <;> rfl
    | _ => cases standing <;> rfl

theorem argumentTurn_ended {standing : ArgumentPlace} {answer : Option Token}
    (turn : argumentTurn standing answer = .ended) : answer = none := by
  rcases answer with _ | ⟨kind, place⟩
  · rfl
  · cases kind with
    | mark sign => cases sign <;> cases standing <;> cases turn
    | _ => cases standing <;> cases turn

theorem argumentTurn_comma {standing : ArgumentPlace} {token : Token}
    (turn : argumentTurn standing (some token) = .comma) :
    standing = .afterArgument ∧ token.kind = .mark .comma := by
  obtain ⟨kind, place⟩ := token
  cases kind with
  | mark sign =>
      cases sign <;> cases standing <;> cases turn
      exact ⟨rfl, rfl⟩
  | _ => cases standing <;> cases turn

theorem argumentTurn_argument {standing : ArgumentPlace} {token : Token}
    (turn : argumentTurn standing (some token) = .argument) :
    standing ≠ .afterArgument ∧ token.kind ≠ .mark .rightParenthesis ∧
      token.kind ≠ .mark .comma := by
  obtain ⟨kind, place⟩ := token
  cases kind with
  | mark sign => cases sign <;> cases standing <;> cases turn <;> simp
  | _ => cases standing <;> cases turn <;> simp

theorem argumentTurn_refuse {standing : ArgumentPlace} {answer : Option Token}
    {failure : SyntaxError} (turn : argumentTurn standing answer = .refuse failure) :
    ∃ token, answer = some token ∧
      failure = ⟨token.location, .unexpectedToken token.kind⟩ := by
  rcases answer with _ | ⟨kind, place⟩
  · cases turn
  · refine ⟨⟨kind, place⟩, rfl, ?_⟩
    cases kind with
    | mark sign => cases sign <;> cases standing <;> cases turn <;> rfl
    | _ =>
        cases standing <;> cases turn
        rfl

/-! ### Further arms -/

inductive ArmTurn where
  | further
  | last
  | stop

def armTurn : Option Token → ArmTurn
  | some ⟨.keyword .elif, _⟩ => .further
  | some ⟨.keyword .else, _⟩ => .last
  | _ => .stop

def ArmTurn.kind? : ArmTurn → Option Token.Kind
  | further => some (.keyword .elif)
  | last => some (.keyword .else)
  | stop => none

theorem armTurn_kind? {token : Token} {kind : Token.Kind}
    (named : (armTurn (some token)).kind? = some kind) : token.kind = kind := by
  obtain ⟨found, place⟩ := token
  cases found with
  | keyword word => cases word <;> cases named <;> rfl
  | _ => cases named

theorem furtherArms_succ {blockLimit : Nat} :
    furtherArms inner blockLimit (limit + 1) = (do
      match armTurn (← Reading.peek) with
      | .further => do
        Reading.skip
        let next ← arm inner blockLimit
        let (others, otherwise) ← furtherArms inner blockLimit limit
        pure (next :: others, otherwise)
      | .last => do
        Reading.skip
        let otherwise ← block inner blockLimit
        pure ([], some otherwise)
      | .stop => pure ([], none)) := by
  rw [furtherArms]
  congr 1
  funext answer
  rcases answer with _ | ⟨kind, place⟩
  · rfl
  · cases kind with
    | keyword word => cases word <;> rfl
    | _ => rfl

/-! ### Operands -/

inductive OperandTurn where
  | call (name : String)
  | declaration
  | pipeline
  | parenthesized
  | number (value : Float)
  | truth (value : Bool)
  | unary (operator : Operator)
  | refuse

def operandTurn (kind : Token.Kind) : OperandTurn :=
  match kind with
  | .name name => .call name
  | .keyword .var => .declaration
  | .mark .at => .pipeline
  | .mark .leftParenthesis => .parenthesized
  | .number value => .number value
  | .keyword .true => .truth true
  | .keyword .false => .truth false
  | kind =>
    match kind.operator? with
    | some operator => .unary operator
    | none => .refuse

theorem operandTurn_unary {kind : Token.Kind} {operator : Operator}
    (turn : operandTurn kind = .unary operator) : kind.operator? = some operator := by
  cases kind with
  | keyword word => cases word <;> cases turn
  | mark sign => cases sign <;> cases turn
  | name name => cases turn
  | number value => cases turn
  | _ => cases turn <;> rfl

def OperandTurn.kind? : OperandTurn → Option Token.Kind
  | call name => some (.name name)
  | declaration => some (.keyword .var)
  | pipeline => some (.mark .at)
  | parenthesized => some (.mark .leftParenthesis)
  | number value => some (.number value)
  | truth true => some (.keyword .true)
  | truth false => some (.keyword .false)
  | unary _ => none
  | refuse => none

theorem operandTurn_kind? {found kind : Token.Kind}
    (named : (operandTurn found).kind? = some kind) : found = kind := by
  cases found with
  | keyword word => cases word <;> cases named <;> rfl
  | mark sign => cases sign <;> cases named <;> rfl
  | name text =>
      cases named
      rfl
  | number value =>
      cases named
      rfl
  | _ => cases named

theorem operand_eq {token : Token} :
    operand inner limit token =
      match operandTurn token.kind with
      | .call name => callForm inner limit name token.location
      | .declaration => variableForm token.location
      | .pipeline => pipelineForm token.location
      | .parenthesized => parenthesizedForm inner token.location
      | .number value => singleForm (.number value token.location)
      | .truth value => singleForm (.truth value token.location)
      | .unary operator => unaryForm inner operator token.location
      | .refuse => Reading.unexpected token := by
  obtain ⟨kind, place⟩ := token
  cases kind with
  | keyword word => cases word <;> rfl
  | mark sign => cases sign <;> rfl
  | _ => rfl

/-! ### Whole expressions -/

inductive StartTurn where
  | separator
  | brace
  | result
  | conditional
  | loop
  | operand

def startTurn : Token.Kind → StartTurn
  | .mark .semicolon => .separator
  | .mark .rightBrace => .brace
  | .keyword .return => .result
  | .keyword .if => .conditional
  | .keyword .while => .loop
  | _ => .operand

def StartTurn.kind? : StartTurn → Option Token.Kind
  | separator => some (.mark .semicolon)
  | brace => some (.mark .rightBrace)
  | result => some (.keyword .return)
  | conditional => some (.keyword .if)
  | loop => some (.keyword .while)
  | operand => none

theorem startTurn_kind? {kind first : Token.Kind} (named : (startTurn kind).kind? = some first) :
    kind = first := by
  cases kind with
  | keyword word => cases word <;> cases named <;> rfl
  | mark sign => cases sign <;> cases named <;> rfl
  | _ => cases named

theorem startingWith_eq {token : Token} :
    startingWith inner limit bound token =
      match startTurn token.kind with
      | .separator => (do
        Reading.skip
        inner bound)
      | .brace => pure (some (.void token.location))
      | .result => statementThen inner limit token.location (resultForm inner token.location)
      | .conditional =>
        statementThen inner limit token.location (conditionalForm inner limit token.location)
      | .loop => statementThen inner limit token.location (loopForm inner limit token.location)
      | .operand => (do
        let first ← operand inner limit token
        let left ← accesses inner token.location limit first
        let whole ← chain inner bound token.location limit left
        pure (some whole)) := by
  obtain ⟨kind, place⟩ := token
  cases kind with
  | keyword word => cases word <;> rfl
  | mark sign => cases sign <;> rfl
  | _ => rfl

end Shading.Grammar
