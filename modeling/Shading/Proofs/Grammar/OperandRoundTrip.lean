import Shading.Proofs.Grammar.Binding
import Shading.Proofs.Grammar.Ordinary
import Shading.Proofs.Grammar.Places

/-!
Written operand trees are read as they are.

A written tree must be found again in front of whatever follows it, and the
accesses and operators that follow are read by the same rules as those inside
it. So the tree is not derived alone: each lemma says that whatever accesses and
operators go on from it, reading may begin at its first token.
-/

namespace Shading

namespace Grammar

/-! ### Written tokens -/

def Written (kinds : List Token.Kind) (input rest : List TokenItem) : Prop :=
  ∃ tokens : List Token, tokens.map Token.kind = kinds ∧ input = tokens.map .ok ++ rest

@[simp] theorem written_nil {input rest : List TokenItem} :
    Written [] input rest ↔ input = rest := by
  constructor
  · rintro ⟨tokens, kinds, rfl⟩
    rw [List.map_eq_nil_iff.mp kinds]
    rfl
  · rintro rfl
    exact ⟨[], rfl, rfl⟩

@[simp] theorem written_cons {kind : Token.Kind} {kinds : List Token.Kind}
    {input rest : List TokenItem} :
    Written (kind :: kinds) input rest ↔
      ∃ place later, input = .ok ⟨kind, place⟩ :: later ∧ Written kinds later rest := by
  constructor
  · rintro ⟨tokens, same, rfl⟩
    obtain ⟨token, others, rfl, rfl, following⟩ := List.map_eq_cons_iff.mp same
    exact ⟨token.location, _, rfl, others, following, rfl⟩
  · rintro ⟨place, later, rfl, tokens, rfl, rfl⟩
    exact ⟨⟨kind, place⟩ :: tokens, rfl, rfl⟩

theorem written_singleton {kind : Token.Kind} {input rest : List TokenItem} :
    Written [kind] input rest ↔ ∃ place, input = .ok ⟨kind, place⟩ :: rest := by
  simp

@[simp] theorem written_append {kinds others : List Token.Kind} {input rest : List TokenItem} :
    Written (kinds ++ others) input rest ↔
      ∃ middle, Written kinds input middle ∧ Written others middle rest := by
  constructor
  · rintro ⟨tokens, same, rfl⟩
    obtain ⟨first, second, rfl, firstKinds, secondKinds⟩ := List.map_eq_append_iff.mp same
    exact ⟨_, ⟨first, firstKinds, by rw [List.map_append, List.append_assoc]⟩,
      second, secondKinds, rfl⟩
  · rintro ⟨_, ⟨first, rfl, rfl⟩, second, rfl, rfl⟩
    exact ⟨first ++ second, List.map_append, by rw [List.map_append, List.append_assoc]⟩

/-! ### What follows a whole tree -/

def endsTree (kind : Token.Kind) : Prop := endsChain kind = true ∧ kind ≠ .mark .dot

theorem endsTree.mark {sign : Token.Punctuation} (closes : endsChain (.mark sign) = true)
    (notDot : sign ≠ .dot) : endsTree (.mark sign) := by
  refine ⟨closes, ?_⟩
  rintro ⟨⟩
  exact notDot rfl

theorem endsTree.noAccess {kind : Token.Kind} (ends : endsTree kind) : ¬ beginsAccess kind := by
  rintro (rfl | rfl)
  · exact ends.2 rfl
  · cases ends.1

theorem endsTree.noFurtherArm {kind : Token.Kind} (ends : endsTree kind) :
    ¬ continuesConditional kind := by
  rintro (rfl | rfl) <;> cases ends.1

theorem stopsChain.mono {kind : Token.Kind} {bound higher : Precedence} (below : bound ≤ higher)
    (stops : stopsChain bound kind) : stopsChain higher kind := by
  rcases stops with ends | ⟨operator, stands, between, looser⟩
  · exact .inl ends
  · exact .inr ⟨operator, stands, between, Nat.le_trans looser below⟩

/-- No operator that is written between two operands passes the bound of one that
is written before its operand. -/
theorem stopsChain_prefixed {kind : Token.Kind} {bound : Precedence}
    (stops : stopsChain bound kind) : stopsChain .prefixed kind := by
  rcases stops with ends | ⟨operator, stands, between, _⟩
  · exact .inl ends
  · exact .inr ⟨operator, stands, between, precedence_le_prefixed (operator?_isAccess stands)⟩

/-! ### Operand trees -/

variable {layout : Layout}

/-- Written in front of any accesses, a tree can be read up to its end, and those
accesses go on from it. -/
def Opens (layout : Layout) (tree : Expression) : Prop :=
  ∀ ⦃input rest : List TokenItem⦄, Written (tree.spelling layout) input rest →
    ∃ token later copy, input = .ok token :: later ∧ copy.unplaced = tree.unplaced ∧
      ∀ {left : Expression} {behind : List TokenItem},
        ReadsAccesses token.location copy rest left behind →
          ∃ first middle, ReadsOperand token later first middle ∧
            ReadsAccesses token.location first middle left behind

/-- Written in front of operators that it keeps together against, a tree can be read
up to its end, and those operators go on from it. -/
def Extends (layout : Layout) (tree : Expression) : Prop :=
  ∀ ⦃input rest : List TokenItem⦄, Written (tree.spelling layout) input rest →
    Ahead (stopsChain tree.grip) rest → Ahead (fun kind => ¬ beginsAccess kind) rest →
      ∃ start copy, copy.unplaced = tree.unplaced ∧
        ∀ {bound : Precedence} {whole : Expression} {behind : List TokenItem},
          bound < tree.grip → ReadsChain bound start copy rest whole behind →
            ReadsExpression bound input whole behind

theorem Opens.extends {tree : Expression} (opened : Opens layout tree) :
    Extends layout tree := by
  intro input rest written _ noAccess
  obtain ⟨token, later, copy, rfl, same, continued⟩ := opened written
  refine ⟨token.location, copy, same, ?_⟩
  intro bound whole behind _ chained
  obtain ⟨first, middle, form, accessed⟩ := continued (.stop noAccess)
  exact .operand form accessed chained

theorem Extends.expression {tree : Expression} (extended : Extends layout tree)
    {bound : Precedence} {input rest : List TokenItem} (below : bound < tree.grip)
    (written : Written (tree.spelling layout) input rest) (stops : Ahead (stopsChain bound) rest)
    (noAccess : Ahead (fun kind => ¬ beginsAccess kind) rest) :
    ∃ copy, copy.unplaced = tree.unplaced ∧ ReadsExpression bound input copy rest := by
  have loose := stops.imp (stopsChain.mono (Nat.le_of_lt below))
  obtain ⟨start, copy, same, continued⟩ := extended written loose noAccess
  exact ⟨copy, same, continued below (.stop stops)⟩

theorem lowest_lt_grip (tree : Expression) : .lowest < tree.grip := by
  refine Expression.lt_grip (by decide) ?_
  intro operator _
  cases operator with
  | arithmetic operator => cases operator <;> decide
  | boolean operator => cases operator <;> decide
  | assign => decide
  | compoundAssign operator => exact (by decide : Precedence.lowest < .assignment)
  | member => decide
  | index => decide

theorem Extends.whole {tree : Expression} (extended : Extends layout tree)
    {input rest : List TokenItem} (written : Written (tree.spelling layout) input rest)
    (ends : Ahead endsTree rest) :
    ∃ copy, copy.unplaced = tree.unplaced ∧ ReadsExpression .lowest input copy rest :=
  extended.expression (lowest_lt_grip tree) written (ends.imp fun ends => .inl ends.1)
    (ends.imp endsTree.noAccess)

theorem Opens.ofForm {tree : Expression}
    (formed : ∀ {input rest : List TokenItem}, Written (tree.spelling layout) input rest →
      ∃ token later copy, input = .ok token :: later ∧ copy.unplaced = tree.unplaced ∧
        ReadsOperand token later copy rest) : Opens layout tree := by
  intro input rest written
  obtain ⟨token, later, copy, taken, same, form⟩ := formed written
  exact ⟨token, later, copy, taken, same, fun accessed => ⟨copy, rest, form, accessed⟩⟩

theorem Opens.member {left : Expression} {name : String} {namePlace place : Location}
    (opened : Opens layout left) :
    Opens layout (.binary .member left (.memberName name namePlace) place) := by
  intro input rest written
  simp only [Expression.spelling, Operator.kind, Operator.closing, List.append_nil,
    written_append, written_cons, written_nil] at written
  obtain ⟨_, leftWritten, dotPlace, _, rfl, newPlace, _, rfl, rfl⟩ := written
  obtain ⟨token, later, copy, taken, same, continued⟩ := opened leftWritten
  refine ⟨token, later, .binary .member copy (.memberName name newPlace) token.location, taken,
    ?_, fun accessed => continued (.member accessed)⟩
  rw [Expression.unplaced_binary, Expression.unplaced_binary, same]
  rfl

theorem Opens.index {left position : Expression} {place : Location}
    (opened : Opens layout left) (extended : Extends layout position) :
    Opens layout (.binary .index left position place) := by
  intro input rest written
  simp only [Expression.spelling, Operator.kind, Operator.closing,
    written_append, written_cons, written_nil] at written
  obtain ⟨_, ⟨_, leftWritten, openPlace, _, rfl, positionWritten⟩, closePlace, _, rfl, rfl⟩ :=
    written
  obtain ⟨inner, innerSame, following⟩ :=
    extended.whole positionWritten (endsTree.mark rfl (by decide))
  obtain ⟨token, later, copy, taken, same, continued⟩ := opened leftWritten
  refine ⟨token, later, .binary .index copy inner token.location, taken, ?_,
    fun accessed => continued (.index following accessed)⟩
  rw [Expression.unplaced_binary, Expression.unplaced_binary, same, innerSame]

theorem Opens.parenthesized {inner : Expression} {place : Location}
    (extended : Extends layout inner) :
    Opens layout (.parenthesized inner place) := by
  refine Opens.ofForm ?_
  intro input rest written
  simp only [Expression.spelling, List.cons_append, written_append, written_cons,
    written_nil] at written
  obtain ⟨openPlace, _, rfl, _, innerWritten, closePlace, _, rfl, rfl⟩ := written
  obtain ⟨copy, same, following⟩ := extended.whole innerWritten (endsTree.mark rfl (by decide))
  refine ⟨_, _, .parenthesized copy openPlace, rfl, ?_, .parenthesized following⟩
  rw [Expression.unplaced_parenthesized, Expression.unplaced_parenthesized, same]

theorem Extends.prefixed {operator : Operator} {operand : Expression} {place : Location}
    (before : operator.standsBefore = true) (closed : operand.infixOperator? = none)
    (extended : Extends layout operand) : Extends layout (.unary operator operand place) := by
  intro input rest written stops noAccess
  have plain : operator.isAccess = false := by
    cases operator with
    | member => cases before
    | index => cases before
    | _ => rfl
  rw [Expression.spelling, written_cons] at written
  obtain ⟨start, later, rfl, operandWritten⟩ := written
  have below : Precedence.prefixed < operand.grip := by
    rw [Expression.grip_of_none closed]
    decide
  obtain ⟨copy, same, following⟩ :=
    extended.expression below operandWritten (stops.imp stopsChain_prefixed) noAccess
  refine ⟨start, .unary operator copy start, ?_, fun _ chained =>
    .operand (.unary (Operator.operator?_kind plain) before following) (.stop noAccess) chained⟩
  rw [Expression.unplaced_unary, Expression.unplaced_unary, same]

theorem Extends.infixed {operator : Operator} {left right : Expression} {place : Location}
    (written : operator.isAccess = false) (between : operator.standsBetween = true)
    (leftGroups : operator.precedence ≤ left.grip) (rightGroups : operator.precedence < right.grip)
    (leftExtended : Extends layout left) (rightExtended : Extends layout right) :
    Extends layout (.binary operator left right place) := by
  intro input rest spelled stops noAccess
  have stands := Operator.operator?_kind written
  have gripped : (Expression.binary operator left right place).grip = operator.precedence := by
    rw [Expression.grip, infixOperator?_binary written]
  have unclosed := operator_closing stands
  rw [gripped] at stops ⊢
  simp only [Expression.spelling, unclosed, List.append_nil, written_append,
    written_cons] at spelled
  obtain ⟨_, leftWritten, operatorPlace, _, rfl, rightWritten⟩ := spelled
  -- The right operand is whole; the left one goes on with the operator and with it.
  obtain ⟨second, secondSame, following⟩ :=
    rightExtended.expression rightGroups rightWritten stops noAccess
  have stopsLeft : stopsChain left.grip operator.kind :=
    .inr ⟨operator, stands, between, leftGroups⟩
  have noAccessLeft : ¬ beginsAccess operator.kind := by
    rintro (same | same) <;> rw [same] at stands <;> cases stands
  obtain ⟨start, first, firstSame, continued⟩ :=
    leftExtended leftWritten stopsLeft noAccessLeft
  refine ⟨start, .binary operator first second start, ?_, fun tighter chained =>
    continued (Nat.lt_of_lt_of_le tighter leftGroups)
      (.extend stands between tighter following chained)⟩
  rw [Expression.unplaced_binary, Expression.unplaced_binary, firstSame, secondSame]

/-! ### Arguments -/

theorem ReadsExpression.begins {bound : Precedence} {token : Token}
    {input rest : List TokenItem} {tree : Expression}
    (derived : ReadsExpression bound (.ok token :: input) tree rest) :
    token.kind ≠ .mark .rightParenthesis ∧ token.kind ≠ .mark .comma := by
  have both : ∀ {kind : Token.Kind}, kind.operator?.isSome = true →
      kind ≠ .mark .rightParenthesis ∧ kind ≠ .mark .comma := by
    intro kind stands
    constructor <;> rintro rfl <;> cases stands
  cases derived with
  | separator _ => exact ⟨nofun, nofun⟩
  | brace => exact ⟨nofun, nofun⟩
  | statement form _ => cases form <;> exact ⟨nofun, nofun⟩
  | operand form _ _ =>
      cases form with
      | unary stands _ _ => exact both (by rw [stands]; rfl)
      | _ => exact ⟨nofun, nofun⟩

theorem Extends.argument {value : Expression} (extended : Extends layout value)
    (standing : ArgumentPlace)
    (expected : standing ≠ .afterArgument) {input middle rest : List TokenItem}
    (written : Written (value.spelling layout) input middle) (ends : Ahead endsTree middle)
    {others : List Expression} (listed : ReadsArguments .afterArgument middle others rest) :
    ∃ copy, copy.unplaced = value.unplaced ∧
      ReadsArguments standing input (copy :: others) rest := by
  obtain ⟨copy, same, derived⟩ := extended.whole written ends
  rcases input with _ | ⟨failure | token, later⟩
  · cases derived
  · cases derived
  · exact ⟨copy, same, .argument expected derived.begins derived listed⟩

theorem arguments_behind {values : List Expression}
    (extended : ∀ value ∈ values, Extends layout value)
    {input rest : List TokenItem}
    (written : Written (argumentsFrom .afterArgument (Expression.spellings layout values))
      input rest) :
    Ahead endsTree input ∧
      ∃ copies, copies.map Expression.unplaced = values.map Expression.unplaced ∧
      ReadsArguments .afterArgument input copies rest := by
  induction values generalizing input with
  | nil =>
      simp only [Expression.spellings, argumentsFrom, List.flatMap_nil, List.nil_append,
        written_cons, written_nil] at written
      obtain ⟨place, _, rfl, rfl⟩ := written
      exact ⟨endsTree.mark rfl (by decide), [], rfl, .close (by decide)⟩
  | cons value others ih =>
      obtain ⟨valueExtended, othersExtended⟩ := List.forall_mem_cons.mp extended
      simp only [Expression.spellings, argumentsFrom, List.flatMap_cons, List.cons_append,
        List.append_assoc, written_cons] at written
      obtain ⟨place, _, rfl, written⟩ := written
      obtain ⟨middle, valueWritten, othersWritten⟩ := written_append.mp written
      obtain ⟨ends, copies, same, listed⟩ := ih othersExtended othersWritten
      obtain ⟨copy, copySame, derived⟩ :=
        valueExtended.argument .afterComma (by decide) valueWritten ends listed
      refine ⟨endsTree.mark rfl (by decide), copy :: copies, ?_, .comma derived⟩
      rw [List.map_cons, List.map_cons, copySame, same]

theorem arguments_written {values : List Expression}
    (extended : ∀ value ∈ values, Extends layout value)
    {input rest : List TokenItem}
    (written : Written (Spelling.arguments (Expression.spellings layout values)) input rest) :
    ∃ copies, copies.map Expression.unplaced = values.map Expression.unplaced ∧
      ReadsArguments .atFirst input copies rest := by
  cases values with
  | nil =>
      simp only [Expression.spellings, Spelling.arguments, Spelling.joined, List.nil_append,
        written_cons, written_nil] at written
      obtain ⟨place, _, rfl, rfl⟩ := written
      exact ⟨[], rfl, .close (by decide)⟩
  | cons value others =>
      obtain ⟨valueExtended, othersExtended⟩ := List.forall_mem_cons.mp extended
      rw [Expression.spellings, arguments_cons, List.append_assoc] at written
      obtain ⟨middle, valueWritten, othersWritten⟩ := written_append.mp written
      obtain ⟨ends, copies, same, listed⟩ := arguments_behind othersExtended othersWritten
      obtain ⟨copy, copySame, derived⟩ :=
        valueExtended.argument .atFirst (by decide) valueWritten ends listed
      refine ⟨copy :: copies, ?_, derived⟩
      rw [List.map_cons, List.map_cons, copySame, same]

theorem Opens.call {name : String} {values : List Expression} {place : Location}
    (extended : ∀ value ∈ values, Extends layout value) :
    Opens layout (.call name values place) := by
  refine Opens.ofForm ?_
  intro input rest written
  simp only [Expression.spelling, written_cons] at written
  obtain ⟨start, _, rfl, openPlace, _, rfl, argumentsWritten⟩ := written
  obtain ⟨copies, same, listed⟩ := arguments_written extended argumentsWritten
  refine ⟨_, _, .call name copies start, rfl, ?_, .call listed⟩
  rw [Expression.unplaced_call, Expression.unplaced_call, same]

/-- Operand trees are read up to their end, whatever goes on from there. -/
theorem operandTree_reads {tree : Expression} (ordinary : tree.OperandTree) :
    (tree.mayBeAccessed = true → Opens layout tree) ∧ Extends layout tree := by
  -- Only trees with an operator at the top are more than what accesses can follow.
  have both : ∀ {tree : Expression}, Opens layout tree →
      (tree.mayBeAccessed = true → Opens layout tree) ∧ Extends layout tree :=
    fun opened => ⟨fun _ => opened, opened.extends⟩
  induction ordinary with
  | number =>
      refine both (Opens.ofForm ?_)
      intro input rest written
      simp only [Expression.spelling, written_cons, written_nil] at written
      obtain ⟨start, _, rfl, rfl⟩ := written
      exact ⟨_, _, .number _ start, rfl, rfl, .number⟩
  | @truth value place =>
      refine both (Opens.ofForm ?_)
      intro input rest written
      simp only [Expression.spelling, written_cons, written_nil] at written
      obtain ⟨start, _, rfl, rfl⟩ := written
      refine ⟨_, _, .truth value start, rfl, rfl, ?_⟩
      cases value with
      | true => exact .truth
      | false => exact .falsehood
  | declaration =>
      refine both (Opens.ofForm ?_)
      intro input rest written
      simp only [Expression.spelling, written_cons, written_nil] at written
      obtain ⟨start, _, rfl, typePlace, _, rfl, namePlace, _, rfl, rfl⟩ := written
      exact ⟨_, _, .declaration _ _ start, rfl, rfl, .declaration⟩
  | @pipeline role name place =>
      refine both (Opens.ofForm ?_)
      intro input rest written
      simp only [Expression.spelling, written_cons, written_nil] at written
      obtain ⟨start, _, rfl, rolePlace, _, rfl, namePlace, _, rfl, rfl⟩ := written
      refine ⟨_, _, .pipeline role name start, rfl, rfl, .pipeline ?_⟩
      cases role <;> rfl
  | call _ ih =>
      exact both (Opens.call fun value among => (ih value among).2)
  | parenthesized _ ih =>
      exact both (Opens.parenthesized ih.2)
  | prefixed before closed _ ih => exact ⟨nofun, Extends.prefixed before closed ih.2⟩
  | member accessed _ ih => exact both (Opens.member (ih.1 accessed))
  | index accessed _ _ ih positionIh =>
      exact both (Opens.index (ih.1 accessed) positionIh.2)
  | @infixed operator _ _ _ written between leftGroups rightGroups _ _ leftIh rightIh =>
      constructor
      · intro accessed
        rw [Expression.mayBeAccessed, written] at accessed
        cases accessed
      · have loose : operator.precedence < .access :=
          Nat.lt_of_le_of_lt (precedence_le_prefixed written) (by decide)
        exact Extends.infixed written between (Expression.le_grip leftGroups)
          (Expression.lt_grip loose rightGroups) leftIh.2 rightIh.2

theorem operandTree_whole {tree : Expression} (ordinary : tree.OperandTree)
    {input rest : List TokenItem} (written : Written (tree.spelling layout) input rest)
    (ends : Ahead endsTree rest) :
    ∃ copy, copy.unplaced = tree.unplaced ∧ ReadsExpression .lowest input copy rest :=
  (operandTree_reads ordinary).2.whole written ends

end Grammar

end Shading
