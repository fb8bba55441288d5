import Shading.Proofs.Grammar.Binding
import Shading.Proofs.Grammar.Foresight

/-!
What may stand behind an expression.

The token behind an expression was looked at, and what it may be is known from the tree alone and
from the bound that the tree was read with. Blocks, arguments and chains of operators rest on that:
they go on at this token without any doubt about what it belongs to.
-/

namespace Shading

/-- A conditional that an `elif` or an `else` would belong to. -/
def Expression.isOpenConditional : Expression → Bool
  | conditional _ _ none _ => true
  | _ => false

namespace Grammar

def closingMarks : List Token.Kind :=
  [.mark .comma, .mark .rightBrace, .mark .rightParenthesis, .mark .semicolon, .mark .rightBracket]

/-- What may follow a tree that was read under a bound; nothing follows at the end. -/
structure Followed (bound : Precedence) (tree : Expression) (next : Option Token) : Prop where
  noAccess : ∀ token, next = some token → ¬ beginsAccess token.kind
  brace : tree.isVoid = true → next = some ⟨.mark .rightBrace, tree.location⟩
  noArm : tree.isOpenConditional = true →
    ∀ token, next = some token → ¬ continuesConditional token.kind
  closed : tree.isVoid = false → tree.isStatement = false → ∀ token, next = some token →
    token.kind ∈ closingMarks ∨
      ∃ operator, token.kind.operator? = some operator ∧ operator.standsBetween = true ∧
        operator.precedence ≤ bound

theorem closingMarks_of_endsChain {kind : Token.Kind} (ends : endsChain kind = true)
    (noAccess : ¬ beginsAccess kind) : kind ∈ closingMarks := by
  cases kind with
  | mark sign =>
      cases sign with
      | dot => exact absurd (.inl rfl) noAccess
      | comma | rightBrace | rightParenthesis | semicolon | rightBracket => simp [closingMarks]
      | _ => cases ends
  | _ => cases ends

/-! ### Conditionals -/

theorem ReadsAccesses.kept {start : Location} {left tree : Expression}
    {input rest : List TokenItem} (derived : ReadsAccesses start left input tree rest)
    (opened : tree.isOpenConditional = true) : tree = left ∧ rest = input := by
  induction derived with
  | stop _ => exact ⟨rfl, rfl⟩
  | member _ ih =>
      obtain ⟨rfl, _⟩ := ih opened
      cases opened
  | index _ _ ih =>
      obtain ⟨rfl, _⟩ := ih opened
      cases opened

theorem ReadsChain.kept {bound : Precedence} {start : Location} {left tree : Expression}
    {input rest : List TokenItem} (derived : ReadsChain bound start left input tree rest)
    (opened : tree.isOpenConditional = true) : tree = left := by
  match derived with
  | .stop _ => rfl
  | .extend _ _ _ _ others =>
      cases others.kept opened
      cases opened

theorem ReadsFurtherArms.noArm {input rest : List TokenItem} {others : List Arm}
    (derived : ReadsFurtherArms input others none rest) :
    Ahead (fun kind => ¬ continuesConditional kind) rest := by
  match derived with
  | .stop ahead => exact ahead
  | .further armed continued => exact continued.noArm

theorem ReadsStatement.noArm {token : Token} {input rest : List TokenItem} {tree : Expression}
    (derived : ReadsStatement token input tree rest) (opened : tree.isOpenConditional = true) :
    Ahead (fun kind => ¬ continuesConditional kind) rest := by
  cases derived with
  | result following => cases opened
  | loop armed => cases opened
  | @conditional place _ middle _ first others otherwise begun continued =>
      cases otherwise with
      | some block => cases opened
      | none => exact continued.noArm

theorem ReadsExpression.noArm {bound : Precedence} {input rest : List TokenItem}
    {tree : Expression} (derived : ReadsExpression bound input tree rest)
    (opened : tree.isOpenConditional = true) :
    Ahead (fun kind => ¬ continuesConditional kind) rest := by
  match derived with
  | .separator following => exact following.noArm opened
  | .brace => cases opened
  | .statement form accessed =>
      obtain ⟨rfl, rfl⟩ := accessed.kept opened
      exact form.noArm opened
  | .operand form accessed chained =>
      -- No operand is a conditional, and neither is what accesses and operators make of one.
      obtain rfl := chained.kept opened
      obtain ⟨rfl, _⟩ := accessed.kept opened
      cases form <;> cases opened

/-! ### Whole expressions -/

theorem ReadsExpression.followed {bound : Precedence} {input rest : List TokenItem}
    {tree : Expression} (derived : ReadsExpression bound input tree rest) :
    ∃ next : Option Token, rest.head? = next.map .ok ∧ Followed bound tree next := by
  have built := derived.built
  have brace : tree.isVoid = true →
      rest.head? = some (.ok ⟨.mark .rightBrace, tree.location⟩) := by
    intro empty
    obtain ⟨place, later, rfl, ahead⟩ := derived.brace_ahead empty
    rw [ahead]
    rfl
  rcases rest with _ | ⟨failure | token, later⟩
  · refine ⟨none, rfl, nofun, fun empty => ?_, fun _ => nofun, fun _ _ => nofun⟩
    cases brace empty
  · exact built.noAccess.elim
  · refine ⟨some token, rfl, ?_, ?_, ?_, ?_⟩
    · rintro _ ⟨rfl⟩
      exact built.noAccess
    · intro empty
      cases brace empty
      rfl
    · rintro opened _ ⟨rfl⟩
      exact derived.noArm opened
    · rintro solid operand _ ⟨rfl⟩
      rcases built.stopped operand with ends | looser
      · exact .inl (closingMarks_of_endsChain ends built.noAccess)
      · exact .inr looser

end Grammar

/-- Where an expression is complete, the parser has looked at the next item. It is the end or a
token that may follow the tree under the bound it was read with. -/
theorem expression_followed {σ : Type} [Source σ TokenItem] [LawfulSource σ]
    {parser after : Parser σ} {bound : Precedence} {tree : Expression}
    (parsed : parser.expression bound = (.ok (some tree), after)) :
    ∃ (next : Option Token) (earlier : Parser σ),
      earlier.peek = (next.map .ok, after) ∧ after.pending.head? = next.map .ok ∧
        Grammar.Followed bound tree next := by
  obtain ⟨next, ahead, followed⟩ := (Parser.reads_of_expression parsed).followed
  obtain ⟨earlier, rfl⟩ := Parser.justLooked_of_expression parsed
  refine ⟨next, earlier, Prod.ext ?_ rfl, ahead, followed⟩
  rw [← ahead, Lookahead.peek_pending, Lookahead.peek_fst]

/-- A parser over `true * if (true) { } + false`, every token at the origin. -/
def conditionalFactorParser : Parser (List TokenItem) :=
  .ofSource ([.keyword .true, .arithmetic .multiply, .keyword .if, .mark .leftParenthesis,
    .keyword .true, .mark .rightParenthesis, .mark .leftBrace, .mark .rightBrace,
    .arithmetic .add, .keyword .false].map fun kind => .ok ⟨kind, .origin⟩)

def conditionalProduct : Expression :=
  .binary (.arithmetic .multiply) (.truth true .origin)
    (.conditional [.truth true .origin] [[]] none .origin) .origin

/-- What follows a product is a sum, even where a statement is the right operand. -/
theorem expression_followed_of_product :
    let after := (conditionalFactorParser.expression .additive).2
    (conditionalFactorParser.expression .additive).1 = .ok (some conditionalProduct) ∧
    ∃ (next : Option Token) (earlier : Parser (List TokenItem)),
      earlier.peek = (next.map .ok, after) ∧ after.pending.head? = next.map .ok ∧
        Grammar.Followed .additive conditionalProduct next :=
  ⟨rfl, expression_followed (show conditionalFactorParser.expression .additive =
    (.ok (some conditionalProduct), (conditionalFactorParser.expression .additive).2) from rfl)⟩

end Shading
