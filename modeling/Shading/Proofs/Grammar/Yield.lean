import Shading.Proofs.Grammar.Derivation
import Shading.Proofs.Grammar.Spelling

/-!
A derivation takes exactly the tokens that its tree is spelled with.

Only semicolons are passed over. The statements follow the derivation rules one
by one; accesses, chains and further arms are stated by what they add to what is
already spelled.
-/

namespace Shading

/-- The kinds of some tokens without the semicolons among them. -/
def significant (tokens : List Token) : List Token.Kind :=
  (tokens.map Token.kind).filter fun kind => decide (kind ≠ .mark .semicolon)

namespace Grammar

/-- Tokens with these kinds, semicolons apart, stand before a rest. -/
def Takes (input : List TokenItem) (kinds : List Token.Kind) (rest : List TokenItem) : Prop :=
  ∃ tokens : List Token, input = tokens.map .ok ++ rest ∧ significant tokens = kinds

namespace Takes

variable {input middle rest : List TokenItem} {kinds others : List Token.Kind}

theorem nothing : Takes input [] input := ⟨[], rfl, rfl⟩

theorem separator {place : Location} (following : Takes input kinds rest) :
    Takes (.ok ⟨.mark .semicolon, place⟩ :: input) kinds rest := by
  obtain ⟨tokens, split, spelled⟩ := following
  exact ⟨⟨.mark .semicolon, place⟩ :: tokens, by rw [split]; rfl, spelled⟩

theorem token {kind : Token.Kind} {place : Location} (solid : kind ≠ .mark .semicolon)
    (following : Takes input kinds rest) :
    Takes (.ok ⟨kind, place⟩ :: input) (kind :: kinds) rest := by
  obtain ⟨tokens, split, spelled⟩ := following
  refine ⟨⟨kind, place⟩ :: tokens, by rw [split]; rfl, ?_⟩
  rw [← spelled]
  simp [significant, solid]

theorem append (first : Takes input kinds middle) (second : Takes middle others rest) :
    Takes input (kinds ++ others) rest := by
  obtain ⟨tokens, split, spelled⟩ := first
  obtain ⟨followers, splitFollowers, spelledFollowers⟩ := second
  refine ⟨tokens ++ followers,
    by rw [split, splitFollowers, List.map_append, List.append_assoc], ?_⟩
  rw [← spelled, ← spelledFollowers]
  simp [significant]

theorem length_le (taken : Takes input kinds rest) : rest.length ≤ input.length := by
  obtain ⟨tokens, split, _⟩ := taken
  rw [split, List.length_append]
  omega

theorem length_lt (taken : Takes input kinds rest) (some : kinds ≠ []) :
    rest.length < input.length := by
  obtain ⟨tokens, split, spelled⟩ := taken
  cases tokens with
  | nil => exact absurd spelled.symm some
  | cons token tokens =>
      rw [split, List.length_append, List.length_map, List.length_cons]
      omega

end Takes

abbrev spelled (tree : Expression) : List Token.Kind := tree.spelling .tight

theorem sequence_tight (elements : List (List Token.Kind)) :
    Spelling.sequence .tight elements = elements.flatten := by
  induction elements with
  | nil => rfl
  | cons element others ih =>
      cases others with
      | nil => simp [Spelling.sequence, Spelling.joined, Spelling.semicolons, Layout.tight]
      | cons next others =>
          unfold Spelling.sequence at ih ⊢
          rw [Spelling.joined, ih]
          simp [Spelling.semicolons, Layout.tight]

theorem arguments_cons (value : List Token.Kind) (others : List (List Token.Kind)) :
    Spelling.arguments (value :: others) =
      value ++ others.flatMap (.mark .comma :: ·) ++ [.mark .rightParenthesis] := by
  unfold Spelling.arguments
  induction others generalizing value with
  | nil => simp [Spelling.joined]
  | cons next others ih =>
      rw [Spelling.joined, List.append_assoc, ih]
      simp

def argumentsFrom : ArgumentPlace → List (List Token.Kind) → List Token.Kind
  | .atFirst, values => Spelling.arguments values
  | .afterArgument, values => values.flatMap (.mark .comma :: ·) ++ [.mark .rightParenthesis]
  | .afterComma, values => Spelling.arguments values

theorem operator_solid (operator : Operator) : operator.kind ≠ .mark .semicolon := by
  cases operator <;> simp [Operator.kind]

theorem pipelineRole_kind {kind : Token.Kind} {role : PipelineRole}
    (named : pipelineRole? kind = some role) : kind = .keyword role.word := by
  unfold pipelineRole? at named
  split at named
  · cases named; rfl
  · cases named; rfl
  · cases named; rfl
  · cases named

theorem operator?_isAccess {kind : Token.Kind} {operator : Operator}
    (stands : kind.operator? = some operator) : operator.isAccess = false := by
  cases kind <;> cases stands <;> rfl

theorem operator_closing {kind : Token.Kind} {operator : Operator}
    (stands : kind.operator? = some operator) : operator.closing = [] := by
  cases operator with
  | index => cases kind <;> cases stands
  | _ => rfl

def spelledArm (armed : Arm) : List Token.Kind :=
  Spelling.arm (spelled armed.condition)
    (Spelling.blockRest .tight (Expression.spellings .tight armed.block))

theorem ReadsArguments.nonempty {input rest : List TokenItem} {values : List Expression}
    (derived : ReadsArguments .afterComma input values rest) : values ≠ [] := by
  cases derived with
  | close complete => exact absurd rfl complete
  | argument _ _ _ _ => exact List.cons_ne_nil _ _

/-! ### Rule by rule -/

mutual

theorem ReadsExpression.takes {bound : Precedence} {input rest : List TokenItem}
    {tree : Expression} (derived : ReadsExpression bound input tree rest) :
    Takes input (spelled tree) rest := by
  match derived with
  | .separator following => exact following.takes.separator
  | .brace => exact .nothing
  | .statement form accessed =>
      obtain ⟨added, taken, grown⟩ := accessed.takes
      rw [grown]
      exact form.takes.append taken
  | .operand form accessed chained =>
      obtain ⟨added, taken, grown⟩ := accessed.takes
      obtain ⟨others, chainTaken, chainGrown⟩ := chained.takes
      rw [chainGrown, grown]
      exact (form.takes.append taken).append chainTaken

theorem ReadsOperand.takes {token : Token} {input rest : List TokenItem} {tree : Expression}
    (derived : ReadsOperand token input tree rest) :
    Takes (.ok token :: input) (spelled tree) rest := by
  match derived with
  | .number => exact .token (by simp) .nothing
  | .truth => exact .token (by simp) .nothing
  | .falsehood => exact .token (by simp) .nothing
  | .declaration => exact .token (by simp) (.token (by simp) (.token (by simp) .nothing))
  | .pipeline named =>
      cases pipelineRole_kind named
      exact .token (by simp) (.token (by simp) (.token (by simp) .nothing))
  | .call listed => exact .token (by simp) (.token (by simp) listed.takes)
  | .unary stands _ following =>
      rw [Operator.kind_of_operator? stands]
      exact .token (operator_solid _) following.takes
  | .parenthesized following =>
      exact .token (by simp) (following.takes.append (.token (by simp) .nothing))

theorem ReadsAccesses.takes {start : Location} {left tree : Expression}
    {input rest : List TokenItem} (derived : ReadsAccesses start left input tree rest) :
    ∃ added, Takes input added rest ∧ spelled tree = spelled left ++ added := by
  match derived with
  | .stop _ => exact ⟨[], .nothing, by simp⟩
  | .member others =>
      obtain ⟨added, taken, grown⟩ := others.takes
      refine ⟨_, .token (by simp) (.token (by simp) taken), ?_⟩
      rw [grown]
      simp [spelled, Expression.spelling, Operator.kind, Operator.closing]
  | .index following others =>
      obtain ⟨added, taken, grown⟩ := others.takes
      refine ⟨_, .token (by simp) (following.takes.append (.token (by simp) taken)), ?_⟩
      rw [grown]
      simp [spelled, Expression.spelling, Operator.kind, Operator.closing]

theorem ReadsChain.takes {bound : Precedence} {start : Location} {left tree : Expression}
    {input rest : List TokenItem} (derived : ReadsChain bound start left input tree rest) :
    ∃ added, Takes input added rest ∧ spelled tree = spelled left ++ added := by
  match derived with
  | .stop _ => exact ⟨[], .nothing, by simp⟩
  | .extend stands _ _ following others =>
      obtain ⟨added, taken, grown⟩ := others.takes
      have unclosed := operator_closing stands
      rw [Operator.kind_of_operator? stands]
      refine ⟨_, .token (operator_solid _) (following.takes.append taken), ?_⟩
      rw [grown]
      simp [spelled, Expression.spelling, unclosed]

theorem ReadsArguments.takes {standing : ArgumentPlace} {input rest : List TokenItem}
    {values : List Expression} (derived : ReadsArguments standing input values rest) :
    Takes input (argumentsFrom standing (Expression.spellings .tight values)) rest := by
  match derived with
  | .close complete =>
      cases standing with
      | afterComma => exact absurd rfl complete
      | atFirst => exact .token (by simp) .nothing
      | afterArgument => exact .token (by simp) .nothing
  | .comma others =>
      have taken := others.takes
      cases values with
      | nil => exact absurd rfl others.nonempty
      | cons value values =>
          rw [argumentsFrom, Expression.spellings, arguments_cons] at taken
          simpa [argumentsFrom, Expression.spellings] using taken.token (by simp)
  | .argument expected _ following others =>
      have taken := following.takes.append others.takes
      cases standing with
      | afterArgument => exact absurd rfl expected
      | atFirst => simpa [argumentsFrom, Expression.spellings, arguments_cons] using taken
      | afterComma => simpa [argumentsFrom, Expression.spellings, arguments_cons] using taken

theorem ReadsStatement.takes {token : Token} {input rest : List TokenItem} {tree : Expression}
    (derived : ReadsStatement token input tree rest) :
    Takes (.ok token :: input) (spelled tree) rest := by
  match derived with
  | .result following => exact .token (by simp) following.takes
  | .conditional begun continued =>
      have taken := begun.takes.append continued.takes
      refine .token (by simp) ?_
      simpa [spelled, spelledArm, Expression.spelling, Expression.spellings,
        Expression.blockSpellings, Spelling.arms] using taken
  | .loop armed => exact .token (by simp) armed.takes

theorem ReadsArm.takes {input rest : List TokenItem} {armed : Arm}
    (derived : ReadsArm input armed rest) : Takes input (spelledArm armed) rest := by
  match derived with
  | .arm following blocked =>
      exact .token (by simp)
        (following.takes.append (.token (by simp) (.token (by simp) blocked.takes)))

theorem ReadsFurtherArms.takes {input rest : List TokenItem} {others : List Arm}
    {otherwise : Option (List Expression)}
    (derived : ReadsFurtherArms input others otherwise rest) :
    Takes input
      (Spelling.arms .elif (Expression.spellings .tight (others.map Arm.condition))
        (Expression.blockSpellings .tight (others.map Arm.block)) ++
          Expression.otherwiseSpelling .tight otherwise) rest := by
  match derived with
  | .stop _ => exact .nothing
  | .further armed continued =>
      have taken := armed.takes.append continued.takes
      refine .token (by simp) ?_
      simpa [spelledArm, Expression.spellings, Expression.blockSpellings, Spelling.arms]
        using taken
  | .last blocked => exact .token (by simp) (.token (by simp) blocked.takes)

theorem ReadsBlock.takes {input rest : List TokenItem} {body : List Expression}
    (derived : ReadsBlock input body rest) :
    Takes input (Spelling.blockRest .tight (Expression.spellings .tight body)) rest := by
  match derived with
  | .close following => exact following.takes.append (.token (by simp) .nothing)
  | .element following _ blocked =>
      have taken := following.takes.append blocked.takes
      simpa [Spelling.blockRest, sequence_tight, Expression.spellings] using taken

end

/-! ### Progress -/

theorem ReadsAccesses.solid {start : Location} {left tree : Expression}
    {input rest : List TokenItem} (derived : ReadsAccesses start left input tree rest)
    (solid : left.isVoid = false) : tree.isVoid = false := by
  induction derived with
  | stop _ => exact solid
  | member _ ih => exact ih rfl
  | index _ _ ih => exact ih rfl

theorem ReadsChain.solid {bound : Precedence} {start : Location} {left tree : Expression}
    {input rest : List TokenItem} (derived : ReadsChain bound start left input tree rest)
    (solid : left.isVoid = false) : tree.isVoid = false := by
  match derived with
  | .stop _ => exact solid
  | .extend _ _ _ _ others => exact others.solid rfl

theorem ReadsOperand.solid {token : Token} {input rest : List TokenItem} {tree : Expression}
    (derived : ReadsOperand token input tree rest) : tree.isVoid = false := by
  cases derived <;> rfl

theorem ReadsStatement.solid {token : Token} {input rest : List TokenItem} {tree : Expression}
    (derived : ReadsStatement token input tree rest) : tree.isVoid = false := by
  cases derived <;> rfl

theorem ReadsOperand.spelled_ne_nil {token : Token} {input rest : List TokenItem}
    {tree : Expression} (derived : ReadsOperand token input tree rest) : spelled tree ≠ [] := by
  cases derived <;> simp [spelled, Expression.spelling]

theorem ReadsStatement.spelled_ne_nil {token : Token} {input rest : List TokenItem}
    {tree : Expression} (derived : ReadsStatement token input tree rest) : spelled tree ≠ [] := by
  cases derived <;> simp [spelled, Expression.spelling, Expression.spellings,
    Expression.blockSpellings, Spelling.arms]

theorem ReadsOperand.shorter {token : Token} {input rest : List TokenItem} {tree : Expression}
    (derived : ReadsOperand token input tree rest) : rest.length ≤ input.length :=
  Nat.le_of_lt_succ (derived.takes.length_lt derived.spelled_ne_nil)

theorem ReadsStatement.shorter {token : Token} {input rest : List TokenItem} {tree : Expression}
    (derived : ReadsStatement token input tree rest) : rest.length ≤ input.length :=
  Nat.le_of_lt_succ (derived.takes.length_lt derived.spelled_ne_nil)

theorem ReadsExpression.brace_ahead {bound : Precedence} {input rest : List TokenItem}
    {tree : Expression} (derived : ReadsExpression bound input tree rest)
    (empty : tree.isVoid = true) :
    ∃ place later, tree = .void place ∧ rest = .ok ⟨.mark .rightBrace, place⟩ :: later := by
  match derived with
  | .separator following => exact following.brace_ahead empty
  | .brace => exact ⟨_, _, rfl, rfl⟩
  | .statement form accessed =>
      rw [accessed.solid form.solid] at empty
      cases empty
  | .operand form accessed chained =>
      rw [chained.solid (accessed.solid form.solid)] at empty
      cases empty

theorem ReadsExpression.spelled_ne_nil {bound : Precedence} {input rest : List TokenItem}
    {tree : Expression} (derived : ReadsExpression bound input tree rest)
    (solid : tree.isVoid = false) : spelled tree ≠ [] := by
  match derived with
  | .separator following => exact following.spelled_ne_nil solid
  | .brace => cases solid
  | .statement form accessed =>
      obtain ⟨_, _, grown⟩ := accessed.takes
      rw [grown]
      exact List.append_ne_nil_of_left_ne_nil form.spelled_ne_nil _
  | .operand form accessed chained =>
      obtain ⟨_, _, grown⟩ := accessed.takes
      obtain ⟨_, _, chainGrown⟩ := chained.takes
      rw [chainGrown, grown, List.append_assoc]
      exact List.append_ne_nil_of_left_ne_nil form.spelled_ne_nil _

theorem ReadsExpression.shorter {bound : Precedence} {input rest : List TokenItem}
    {tree : Expression} (derived : ReadsExpression bound input tree rest)
    (solid : tree.isVoid = false) : rest.length < input.length :=
  derived.takes.length_lt (derived.spelled_ne_nil solid)

end Grammar

end Shading
