import Shading.Proofs.Grammar.Recognition
import Shading.Proofs.Grammar.Shape

/-!
Every parsed tree respects precedence, grouping and fixity.

What carries the induction is what stands behind a tree. No access does; and
unless the tree is a statement, whatever does stops a chain under the bound that
the tree was read with. Statements read no operators behind them, which is the
only way for a loose operator to get a tighter right neighbour.
-/

namespace Shading

namespace Grammar

theorem Ahead.imp {test other : Token.Kind → Prop} {input : List TokenItem}
    (implies : ∀ {kind}, test kind → other kind) (ahead : Ahead test input) :
    Ahead other input := by
  rcases input with _ | ⟨failure | token, later⟩
  · trivial
  · exact ahead
  · exact implies ahead

structure BuiltUnder (bound : Precedence) (tree : Expression) (rest : List TokenItem) : Prop where
  built : tree.WellBuilt
  noAccess : Ahead (fun kind => ¬ beginsAccess kind) rest
  tighter : ∀ operator, tree.infixOperator? = some operator → bound < operator.precedence
  stopped : tree.isStatement = false → Ahead (stopsChain bound) rest

/-- A left operand that a chain may go on from: an operator at its top binds tighter
than the bound of the chain, and lets no tighter one follow unless its right
operand is a statement. -/
structure ExtendsUnder (bound : Precedence) (left : Expression) (rest : List TokenItem) :
    Prop where
  built : left.WellBuilt
  solid : left.isVoid = false
  operand : left.isStatement = false
  noAccess : Ahead (fun kind => ¬ beginsAccess kind) rest
  tighter : ∀ operator, left.infixOperator? = some operator → bound < operator.precedence
  stopped : ∀ {operator first second place}, left = .binary operator first second place →
    operator.isAccess = false →
      Ahead (stopsChain operator.precedence) rest ∨ second.isStatement = true

def Arm.WellBuilt (armed : Arm) : Prop :=
  armed.condition.WellBuilt ∧ ∀ element ∈ armed.block, element.WellBuilt

theorem infixOperator?_binary {operator : Operator} {left right : Expression} {place : Location}
    (written : operator.isAccess = false) :
    (Expression.binary operator left right place).infixOperator? = some operator := by
  rw [Expression.infixOperator?, written]
  rfl

theorem precedence_le_prefixed {operator : Operator} (written : operator.isAccess = false) :
    operator.precedence ≤ .prefixed := by
  cases operator with
  | arithmetic operator => cases operator <;> decide
  | boolean operator => cases operator <;> decide
  | assign => decide
  | compoundAssign operator => exact (by decide : Precedence.assignment ≤ .prefixed)
  | member => cases written
  | index => cases written

theorem infixOperator?_isAccess {tree : Expression} {operator : Operator}
    (found : tree.infixOperator? = some operator) : operator.isAccess = false := by
  unfold Expression.infixOperator? at found
  split at found
  · split at found
    · cases found
    · cases found
      exact Bool.eq_false_iff.mpr ‹_›
  · cases found

/-! ### Accesses -/

theorem ReadsAccesses.none {start : Location} {left tree : Expression}
    {input rest : List TokenItem} (derived : ReadsAccesses start left input tree rest)
    (ahead : Ahead (fun kind => ¬ beginsAccess kind) input) : tree = left ∧ rest = input := by
  cases derived with
  | stop _ => exact ⟨rfl, rfl⟩
  | member _ => exact absurd (.inl rfl) ahead
  | index _ _ => exact absurd (.inr rfl) ahead

theorem ReadsAccesses.noAccess {start : Location} {left tree : Expression}
    {input rest : List TokenItem} (derived : ReadsAccesses start left input tree rest) :
    Ahead (fun kind => ¬ beginsAccess kind) rest := by
  induction derived with
  | stop ahead => exact ahead
  | member _ ih => exact ih
  | index _ _ ih => exact ih

theorem ReadsAccesses.noOperator {start : Location} {left tree : Expression}
    {input rest : List TokenItem} (derived : ReadsAccesses start left input tree rest)
    (none : left.infixOperator? = .none) : tree.infixOperator? = .none := by
  induction derived with
  | stop _ => exact none
  | member _ ih => exact ih rfl
  | index _ _ ih => exact ih rfl

theorem ReadsAccesses.isBlockStatement {start : Location} {left tree : Expression}
    {input rest : List TokenItem} (derived : ReadsAccesses start left input tree rest) :
    tree.isBlockStatement = left.isBlockStatement := by
  induction derived with
  | stop _ => rfl
  | member _ ih => exact ih
  | index _ _ ih => exact ih

theorem ReadsAccesses.isOperand {start : Location} {left tree : Expression}
    {input rest : List TokenItem} (derived : ReadsAccesses start left input tree rest)
    (operand : left.isStatement = false) : tree.isStatement = false := by
  have unblocked : ∀ {left : Expression}, left.isStatement = false →
      left.isBlockStatement = false := by
    intro left operand
    cases left with
    | result _ _ => rfl
    | _ => exact operand
  induction derived with
  | stop _ => exact operand
  | member _ ih =>
      have plain := unblocked operand
      exact ih plain
  | index _ _ ih =>
      have plain := unblocked operand
      exact ih plain

theorem ReadsOperand.plain {token : Token} {input rest : List TokenItem} {tree : Expression}
    (derived : ReadsOperand token input tree rest) :
    tree.isStatement = false ∧ tree.infixOperator? = .none := by
  cases derived <;> exact ⟨rfl, rfl⟩

theorem ReadsStatement.isStatement {token : Token} {input rest : List TokenItem}
    {tree : Expression} (derived : ReadsStatement token input tree rest) :
    tree.isStatement = true ∧ tree.infixOperator? = .none := by
  cases derived <;> exact ⟨rfl, rfl⟩

theorem ReadsAccesses.ofStatement {start : Location} {left tree : Expression}
    {input rest : List TokenItem} (derived : ReadsAccesses start left input tree rest)
    (statement : left.isStatement = true)
    (accessed : left.mayBeAccessed = true ∨ Ahead (fun kind => ¬ beginsAccess kind) input) :
    tree.isStatement = true := by
  rcases accessed with accessed | ahead
  · have blocked : left.isBlockStatement = true := by
      cases left with
      | result _ _ => cases accessed
      | _ => exact statement
    have kept : tree.isBlockStatement = true := derived.isBlockStatement.trans blocked
    cases tree with
    | result _ _ => rfl
    | _ => exact kept
  · obtain ⟨rfl, _⟩ := derived.none ahead
    exact statement

/-! ### Chains -/

theorem stopsChain_precedence {kind : Token.Kind} {operator : Operator} {bound : Precedence}
    (stands : kind.operator? = some operator) (stops : stopsChain bound kind) :
    operator.precedence ≤ bound := by
  rcases stops with ends | ⟨other, found, _, looser⟩
  · rw [operator?_of_endsChain ends] at stands
    cases stands
  · cases stands.symm.trans found
    exact looser

/-- With an operator and its right operand, a left operand grows into one that the
chain may go on from. -/
theorem ExtendsUnder.grow {bound : Precedence} {start place : Location} {kind : Token.Kind}
    {operator : Operator} {left right : Expression} {input middle : List TokenItem}
    (leftward : ExtendsUnder bound left (.ok ⟨kind, place⟩ :: input))
    (stands : kind.operator? = some operator) (between : operator.standsBetween = true)
    (tighter : bound < operator.precedence)
    (rightward : BuiltUnder operator.precedence right middle) :
    ExtendsUnder bound (.binary operator left right start) middle := by
  have written := operator?_isAccess stands
  have grouped : Expression.groupsLeft operator left := by
    intro inner first second innerPlace shape innerWritten
    rcases leftward.stopped shape innerWritten with stops | statement
    · exact .inl (stopsChain_precedence stands stops)
    · exact .inr statement
  constructor
  · exact .infixed written between leftward.solid leftward.operand grouped rightward.tighter
      leftward.built rightward.built
  · rfl
  · rw [Expression.isStatement, Expression.isBlockStatement, written]
    · rfl
    · simp
  · exact rightward.noAccess
  · intro top same
    rw [infixOperator?_binary written] at same
    cases same
    exact tighter
  · intro top first second topPlace same _
    cases same
    cases statement : right.isStatement with
    | true => exact .inr rfl
    | false => exact .inl (rightward.stopped statement)

/-! ### Rule by rule -/

mutual

theorem ReadsExpression.built {bound : Precedence} {input rest : List TokenItem}
    {tree : Expression} (derived : ReadsExpression bound input tree rest) :
    BuiltUnder bound tree rest := by
  match derived with
  | .separator following => exact following.built
  | .brace => exact ⟨.void, by simp [Ahead, beginsAccess], nofun, fun _ => .inl rfl⟩
  | .statement form accessed =>
      obtain ⟨firstBuilt, mayBe⟩ := form.built
      -- A statement reads no operators behind it, so nothing has to stop a chain there.
      have statement := accessed.ofStatement form.isStatement.1 mayBe
      constructor
      · exact accessed.built firstBuilt mayBe
      · exact accessed.noAccess
      · rw [accessed.noOperator form.isStatement.2]
        nofun
      · rw [statement]
        nofun
  | .operand form accessed chained =>
      obtain ⟨firstBuilt, mayBe⟩ := form.built
      -- No operator is at the top yet: the chain begins with nothing to keep apart.
      have noOperator := accessed.noOperator form.plain.2
      refine chained.built ?_
      constructor
      · exact accessed.built firstBuilt mayBe
      · exact accessed.solid form.solid
      · exact accessed.isOperand form.plain.1
      · exact accessed.noAccess
      · rw [noOperator]
        nofun
      · rintro operator first second place rfl written
        rw [infixOperator?_binary written] at noOperator
        cases noOperator

theorem ReadsOperand.built {token : Token} {input rest : List TokenItem} {tree : Expression}
    (derived : ReadsOperand token input tree rest) :
    tree.WellBuilt ∧
      (tree.mayBeAccessed = true ∨ Ahead (fun kind => ¬ beginsAccess kind) rest) := by
  match derived with
  | .number => exact ⟨.number, .inl rfl⟩
  | .truth => exact ⟨.truth, .inl rfl⟩
  | .falsehood => exact ⟨.truth, .inl rfl⟩
  | .declaration => exact ⟨.declaration, .inl rfl⟩
  | .pipeline _ => exact ⟨.pipeline, .inl rfl⟩
  | .call listed => exact ⟨.call listed.built, .inl rfl⟩
  | .unary _ before following =>
      have operand := following.built
      -- Every operator between two operands is looser than the bound of the operand.
      have closed := Option.eq_none_iff_forall_ne_some.mpr fun inner found =>
        absurd (operand.tighter inner found)
          (Nat.not_lt.mpr (precedence_le_prefixed (infixOperator?_isAccess found)))
      exact ⟨.prefixed before closed operand.built, .inr operand.noAccess⟩
  | .parenthesized following => exact ⟨.parenthesized following.built.built, .inl rfl⟩

theorem ReadsAccesses.built {start : Location} {left tree : Expression}
    {input rest : List TokenItem} (derived : ReadsAccesses start left input tree rest)
    (leftBuilt : left.WellBuilt)
    (mayBe : left.mayBeAccessed = true ∨ Ahead (fun kind => ¬ beginsAccess kind) input) :
    tree.WellBuilt := by
  match derived with
  | .stop _ => exact leftBuilt
  | .member others =>
      have accessed := mayBe.resolve_right (· (.inl rfl))
      exact others.built (.member accessed leftBuilt) (.inl rfl)
  | .index following others =>
      have accessed := mayBe.resolve_right (· (.inr rfl))
      exact others.built (.index accessed leftBuilt following.built.built) (.inl rfl)

theorem ReadsChain.built {bound : Precedence} {start : Location} {left tree : Expression}
    {input rest : List TokenItem} (derived : ReadsChain bound start left input tree rest)
    (standing : ExtendsUnder bound left input) : BuiltUnder bound tree rest := by
  match derived with
  | .stop ahead => exact ⟨standing.built, standing.noAccess, standing.tighter, fun _ => ahead⟩
  | .extend stands between tighter following others =>
      exact others.built (standing.grow stands between tighter following.built)

theorem ReadsArguments.built {standing : ArgumentPlace} {input rest : List TokenItem}
    {values : List Expression} (derived : ReadsArguments standing input values rest) :
    ∀ value ∈ values, value.WellBuilt := by
  match derived with
  | .close _ => nofun
  | .comma others => exact others.built
  | .argument _ _ following others =>
      exact List.forall_mem_cons.mpr ⟨following.built.built, others.built⟩

theorem ReadsStatement.built {token : Token} {input rest : List TokenItem} {tree : Expression}
    (derived : ReadsStatement token input tree rest) :
    tree.WellBuilt ∧
      (tree.mayBeAccessed = true ∨ Ahead (fun kind => ¬ beginsAccess kind) rest) := by
  match derived with
  | .result following =>
      have value := following.built
      exact ⟨.result value.built, .inr value.noAccess⟩
  | .conditional begun continued =>
      obtain ⟨othersBuilt, otherwiseBuilt⟩ := continued.built
      have armsBuilt := List.forall_mem_cons.mpr ⟨begun.built, othersBuilt⟩
      refine ⟨.conditional (List.cons_ne_nil _ _) (by simp) ?_ ?_ otherwiseBuilt, .inl rfl⟩
      · rw [← List.map_cons]
        exact List.forall_mem_map.mpr fun armed among => (armsBuilt armed among).1
      · rw [← List.map_cons]
        exact List.forall_mem_map.mpr fun armed among => (armsBuilt armed among).2
  | .loop armed => exact ⟨.loop armed.built.1 armed.built.2, .inl rfl⟩

theorem ReadsArm.built {input rest : List TokenItem} {armed : Arm}
    (derived : ReadsArm input armed rest) : armed.WellBuilt := by
  match derived with
  | .arm following blocked => exact ⟨following.built.built, blocked.built⟩

theorem ReadsFurtherArms.built {input rest : List TokenItem} {others : List Arm}
    {otherwise : Option (List Expression)}
    (derived : ReadsFurtherArms input others otherwise rest) :
    (∀ armed ∈ others, Arm.WellBuilt armed) ∧
      ∀ block, otherwise = some block → ∀ element ∈ block, element.WellBuilt := by
  match derived with
  | .stop _ => exact ⟨nofun, nofun⟩
  | .further armed continued =>
      obtain ⟨othersBuilt, otherwiseBuilt⟩ := continued.built
      exact ⟨List.forall_mem_cons.mpr ⟨armed.built, othersBuilt⟩, otherwiseBuilt⟩
  | .last blocked =>
      refine ⟨nofun, ?_⟩
      rintro block ⟨rfl⟩
      exact blocked.built

theorem ReadsBlock.built {input rest : List TokenItem} {body : List Expression}
    (derived : ReadsBlock input body rest) : ∀ element ∈ body, element.WellBuilt := by
  match derived with
  | .close _ => nofun
  | .element following _ blocked =>
      exact List.forall_mem_cons.mpr ⟨following.built.built, blocked.built⟩

end

theorem ReadsProgram.built {input : List TokenItem} {trees : List Expression}
    (derived : ReadsProgram input trees) : ∀ tree ∈ trees, tree.WellBuilt := by
  induction derived with
  | finish _ => nofun
  | expression following _ _ ih => exact List.forall_mem_cons.mpr ⟨following.built.built, ih⟩

end Grammar

/-- Whatever is parsed, from any source and under any bound, is well built at every
depth, and an operator at its top binds tighter than the bound. -/
theorem parse_wellBuilt {σ : Type} [Source σ TokenItem] [LawfulSource σ]
    (parser : Parser σ) :
    (∀ {bound : Precedence} {tree : Expression} {after : Parser σ},
      parser.expression bound = (.ok (some tree), after) →
        tree.WellBuilt ∧
          ∀ operator, tree.infixOperator? = some operator → bound < operator.precedence) ∧
    (∀ {program : Program} {after : Parser σ}, parser.program = (.ok program, after) →
      ∀ tree ∈ program.expressions, tree.WellBuilt) := by
  constructor
  · intro bound tree after parsed
    have derived := (Parser.reads_of_expression parsed).built
    exact ⟨derived.built, derived.tighter⟩
  · intro program after parsed
    have finished : parser.program.1 = .ok program := by rw [parsed]
    exact (Parser.program_iff.mp finished).built

/-- A parser over `true + while (false) { } * f()`, every token at the origin. -/
def loopSumParser : Parser (List TokenItem) :=
  .ofSource ([.keyword .true, .arithmetic .add, .keyword .while, .mark .leftParenthesis,
    .keyword .false, .mark .rightParenthesis, .mark .leftBrace, .mark .rightBrace,
    .arithmetic .multiply, .name "f", .mark .leftParenthesis,
    .mark .rightParenthesis].map fun kind => .ok ⟨kind, .origin⟩)

def loopProduct : Expression :=
  .binary (.arithmetic .multiply)
    (.binary (.arithmetic .add) (.truth true .origin) (.loop (.truth false .origin) [] .origin)
      .origin)
    (.call "f" [] .origin) .origin

/-- A sum that ends in a loop may be the left operand of a product. -/
theorem parse_wellBuilt_of_loopProduct :
    ((loopSumParser.expression .bitAnd).1 = .ok (some loopProduct) ∧ loopProduct.WellBuilt ∧
      ∀ operator, loopProduct.infixOperator? = some operator →
        Precedence.bitAnd < operator.precedence) ∧
    loopSumParser.program.1 = .ok ⟨[loopProduct]⟩ ∧
      ∀ tree ∈ [loopProduct], tree.WellBuilt :=
  ⟨⟨rfl, (parse_wellBuilt loopSumParser).1
      (show loopSumParser.expression .bitAnd =
        (.ok (some loopProduct), (loopSumParser.expression .bitAnd).2) from rfl)⟩,
    rfl, (parse_wellBuilt loopSumParser).2
      (show loopSumParser.program =
        (.ok ⟨[loopProduct]⟩, loopSumParser.program.2) from rfl)⟩

end Shading
