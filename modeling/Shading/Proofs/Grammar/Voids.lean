import Shading.Proofs.Grammar.Stamps
import Shading.Proofs.Lexer.Tokens

/-!
The empty expression stands at the ends of blocks only.

It is read in front of a closing brace, and the brace is left there. So whatever took it
must end in front of this brace too, up to a block that takes the brace. Behind all other
parts of a node a token of the node stands that is no closing brace, and the elements of
blocks and programs are never empty.
-/

namespace Shading

/-! ### What stands behind a part -/

/-- What may stand behind a part of a node that does not end with it. A closing brace, or
an element, stands behind elements only. -/
inductive Role.Before : Role → List Segment → Prop where
  | element {part : Expression} {others : List Segment} :
      Role.Before .element (.tree .element part :: others)
  | brace {others : List Segment} :
      Role.Before .element (.token (.mark .rightBrace) :: others)
  | token {role : Role} {kind : Token.Kind} {others : List Segment}
      (other : kind ≠ .mark .rightBrace) : Role.Before role (.token kind :: others)

def Orderly (segments : List Segment) : Prop :=
  ∀ frame part, segments = Frame.around frame part → frame.role.Before frame.behind

namespace Orderly

theorem nothing : Orderly [] := by
  intro frame part whole
  exact absurd whole.symm (List.append_ne_nil_of_right_ne_nil _ (List.cons_ne_nil _ _))

theorem token {kind : Token.Kind} {others : List Segment} (following : Orderly others) :
    Orderly (.token kind :: others) := by
  intro frame part whole
  obtain ⟨before, role, behind⟩ := frame
  cases before with
  | nil => cases whole
  | cons segment before =>
      cases whole
      exact following ⟨before, role, behind⟩ part rfl

theorem tree {role : Role} {first : Expression} {others : List Segment}
    (stands : role.Before others) (following : Orderly others) :
    Orderly (.tree role first :: others) := by
  intro frame part whole
  obtain ⟨before, frameRole, behind⟩ := frame
  cases before with
  | nil =>
      cases whole
      exact stands
  | cons segment before =>
      cases whole
      exact following ⟨before, frameRole, behind⟩ part rfl

end Orderly

namespace Segment

variable {others : List Segment}

theorem blockRest_orderly (elements : List Expression) (following : Orderly others) :
    Orderly (blockRest elements ++ others) := by
  induction elements with
  | nil => exact .token following
  | cons element elements ih =>
      refine .tree ?_ ih
      cases elements with
      | nil => exact .brace
      | cons next elements => exact .element

theorem arm_orderly (condition : Expression) (elements : List Expression)
    (following : Orderly others) : Orderly (arm condition elements ++ others) :=
  .token (.tree (.token (by simp)) (.token (.token (blockRest_orderly elements following))))

theorem arms_orderly (word : Token.Keyword) (conditions : List Expression)
    (blocks : List (List Expression)) (following : Orderly others) :
    Orderly (arms word conditions blocks ++ others) := by
  induction conditions generalizing word blocks with
  | nil => exact following
  | cons condition conditions ih =>
      cases blocks with
      | nil => exact following
      | cons block blocks =>
          refine .token ?_
          show Orderly (arm _ _ ++ _ ++ others)
          rw [List.append_assoc]
          exact arm_orderly condition block (ih .elif blocks)

theorem otherwise_orderly (last : Option (List Expression)) : Orderly (otherwise last) := by
  cases last with
  | none => exact .nothing
  | some block =>
      have orderly := blockRest_orderly block Orderly.nothing
      rw [List.append_nil] at orderly
      exact .token (.token orderly)

theorem before_furtherArguments (role : Role) (values : List Expression) :
    role.Before (furtherArguments values) := by
  cases values with
  | nil => exact .token (by simp)
  | cons value others => exact .token (by simp)

theorem furtherArguments_orderly (values : List Expression) :
    Orderly (furtherArguments values) := by
  induction values with
  | nil => exact .token .nothing
  | cons value others ih => exact .token (.tree (before_furtherArguments .argument others) ih)

theorem arguments_orderly (values : List Expression) : Orderly (arguments values) := by
  cases values with
  | nil => exact .token .nothing
  | cons value others =>
      exact .tree (before_furtherArguments .argument others) (furtherArguments_orderly others)

end Segment

/-! ### Parts that a node ends with -/

/-- A node ends with a part: the value of a result, the operand of an operator in front
of it, or the right operand of an operator that is no access. -/
inductive Trailing : Expression → Frame → Expression → Prop where
  | value {value : Expression} {place : Location} :
      Trailing (.result value place) ⟨[.token (.keyword .return)], .value, []⟩ value
  | operand {operator : Operator} {operand : Expression} {place : Location} :
      Trailing (.unary operator operand place) ⟨[.token operator.kind], .operand, []⟩ operand
  | right {operator : Operator} {left right : Expression} {place : Location}
      (plain : operator.isAccess = false) :
      Trailing (.binary operator left right place)
        ⟨[.tree .left left, .token operator.kind], .right, []⟩ right

theorem orderly_tokens (kinds : List Token.Kind) : Orderly (kinds.map .token) := by
  induction kinds with
  | nil => exact .nothing
  | cons kind others ih => exact .token ih

theorem Trailing.of_second {operator : Operator} {left right part : Expression}
    {place : Location} {before behind : List Segment} {role : Role}
    (whole : (.tree operator.rightRole right :: operator.closing.map .token : List Segment) =
      Frame.around ⟨before, role, behind⟩ part) :
    Trailing (.binary operator left right place)
        ⟨.tree .left left :: .token operator.kind :: before, role, behind⟩ part ∨
      role = .member ∨ role.Before behind := by
  cases before with
  | cons segment before =>
      have closed := (List.cons.inj whole).2
      exact .inr (.inr (orderly_tokens operator.closing ⟨before, role, behind⟩ part closed))
  | nil =>
      cases plain : operator.isAccess with
      | false =>
          rw [Operator.closing_of_plain plain, Operator.rightRole_of_plain plain] at whole
          cases whole
          exact .inl (.right plain)
      | true =>
          cases operator with
          | member =>
              cases whole
              exact .inr (.inl rfl)
          | index =>
              cases whole
              exact .inr (.inr (.token (by simp)))
          | _ => cases plain

theorem Frame.eq_of_last {kind : Token.Kind} {role : Role} {last part : Expression}
    {frame : Frame} (whole : [.token kind, .tree role last] = frame.around part) :
    frame = ⟨[.token kind], role, []⟩ ∧ part = last := by
  obtain ⟨before, frameRole, behind⟩ := frame
  rcases before with _ | ⟨first, _ | ⟨second, before⟩⟩
  · cases whole
  · cases whole
    exact ⟨rfl, rfl⟩
  · have nothing := (List.cons.inj (List.cons.inj whole).2).2
    exact absurd nothing.symm (List.append_ne_nil_of_right_ne_nil _ (List.cons_ne_nil _ _))

/-- A part of a node ends it, or is the name of a member, or is followed in the node. -/
theorem Expression.part_cases {node part : Expression} {frame : Frame}
    (whole : node.segments = frame.around part) :
    Trailing node frame part ∨ frame.role = .member ∨ frame.role.Before frame.behind := by
  cases node with
  | binary operator left right place =>
      obtain ⟨before, role, behind⟩ := frame
      rcases before with _ | ⟨first, _ | ⟨second, before⟩⟩
      · cases whole
        exact .inr (.inr (.token operator.kind_ne_rightBrace))
      · cases whole
      · obtain ⟨rfl, others⟩ := List.cons.inj whole
        obtain ⟨rfl, behindOperator⟩ := List.cons.inj others
        exact Trailing.of_second behindOperator
  | unary operator operand place =>
      obtain ⟨rfl, rfl⟩ := Frame.eq_of_last whole
      exact .inl .operand
  | result value place =>
      obtain ⟨rfl, rfl⟩ := Frame.eq_of_last whole
      exact .inl .value
  | parenthesized inner place =>
      have orderly : Orderly (Expression.parenthesized inner place).segments :=
        .token (.tree (.token (by simp)) (.token .nothing))
      exact .inr (.inr (orderly frame part whole))
  | call name values place =>
      have orderly : Orderly (Expression.call name values place).segments :=
        .token (.token (Segment.arguments_orderly values))
      exact .inr (.inr (orderly frame part whole))
  | conditional conditions blocks otherwise place =>
      have orderly : Orderly (Expression.conditional conditions blocks otherwise place).segments :=
        Segment.arms_orderly .if conditions blocks (Segment.otherwise_orderly otherwise)
      exact .inr (.inr (orderly frame part whole))
  | loop condition block place =>
      have orderly := Segment.arm_orderly condition block Orderly.nothing
      rw [List.append_nil] at orderly
      exact .inr (.inr (orderly.token frame part whole))
  | number value place => exact .inr (.inr (Orderly.nothing.token frame part whole))
  | truth value place => exact .inr (.inr (Orderly.nothing.token frame part whole))
  | memberName name place => exact .inr (.inr (Orderly.nothing.token frame part whole))
  | declaration type name place =>
      exact .inr (.inr (Orderly.nothing.token.token.token frame part whole))
  | pipeline role name place =>
      exact .inr (.inr (Orderly.nothing.token.token.token frame part whole))
  | void place => exact .inr (.inr (Orderly.nothing frame part whole))

/-- An element ends with a part, at any depth. The frames lead from the part outwards to
the element. -/
inductive Ends : Expression → List Frame → Expression → Prop where
  | here {part : Expression} : Ends part [] part
  | within {node inner part : Expression} {frame : Frame} {tails : List Frame}
      (trailing : Trailing node frame inner) (way : Ends inner tails part) :
      Ends node (tails ++ [frame]) part

theorem Ends.of_nil {element part : Expression} {tails : List Frame} (way : Ends element tails part)
    (direct : tails = []) : element = part := by
  cases way with
  | here => rfl
  | within _ _ => exact absurd direct (List.append_ne_nil_of_right_ne_nil _ (List.cons_ne_nil _ _))

theorem Ends.trailing {element node part : Expression} {frame : Frame} {tails : List Frame}
    (way : Ends element tails node) (last : Trailing node frame part) :
    Ends element (frame :: tails) part := by
  induction way with
  | here => exact .within last .here
  | within trailing _ ih => exact .within trailing (ih last)

theorem Trailing.unique {node part other : Expression} {frame next : Frame}
    (trailing : Trailing node frame part) (again : Trailing node next other) :
    frame = next ∧ part = other := by
  cases trailing <;> cases again <;> exact ⟨rfl, rfl⟩

theorem Ends.unique {element : Expression} {tails more : List Frame} {place later : Location}
    (way : Ends element tails (.void place)) (other : Ends element more (.void later)) :
    tails = more ∧ place = later := by
  generalize same : Expression.void place = part at way
  induction way generalizing more with
  | here =>
      subst same
      cases other with
      | here => exact ⟨rfl, rfl⟩
      | within trailing _ => cases trailing
  | within trailing way ih =>
      cases other with
      | here => cases trailing
      | within again otherWay =>
          obtain ⟨rfl, rfl⟩ := trailing.unique again
          obtain ⟨rfl, found⟩ := ih otherWay same
          exact ⟨rfl, found⟩

theorem Trailing.spelling {node part : Expression} {frame : Frame}
    (trailing : Trailing node frame part) :
    node.spelling .tight = Segment.spelling frame.before ++ part.spelling .tight := by
  cases trailing with
  | value => rfl
  | operand => rfl
  | right plain => simp [Expression.spelling, Operator.closing_of_plain plain]

theorem Frame.kindsBefore_append (inner outer : List Frame) :
    kindsBefore (inner ++ outer) = kindsBefore outer ++ kindsBefore inner := by
  induction inner with
  | nil => exact (List.append_nil _).symm
  | cons frame inner ih =>
      rw [List.cons_append, kindsBefore, ih, kindsBefore, List.append_assoc]

theorem Ends.spelling {element part : Expression} {tails : List Frame}
    (way : Ends element tails part) :
    element.spelling .tight = Frame.kindsBefore tails ++ part.spelling .tight := by
  induction way with
  | here => rfl
  | within trailing _ ih =>
      rw [trailing.spelling, ih, Frame.kindsBefore_append, ← List.append_assoc]
      rfl

theorem Frame.kindsBehind_append (inner outer : List Frame) :
    kindsBehind (inner ++ outer) = kindsBehind inner ++ kindsBehind outer := by
  induction inner with
  | nil => rfl
  | cons frame inner ih =>
      rw [List.cons_append, kindsBehind, ih, kindsBehind, List.append_assoc]

theorem Ends.nothing_behind {element part : Expression} {tails : List Frame}
    (way : Ends element tails part) : Frame.kindsBehind tails = [] := by
  induction way with
  | here => rfl
  | within trailing _ ih =>
      rw [Frame.kindsBehind_append, ih]
      cases trailing <;> rfl

theorem Ends.role {element part : Expression} {tails : List Frame} (way : Ends element tails part) :
    ∀ frame ∈ tails, frame.role = .value ∨ frame.role = .operand ∨ frame.role = .right := by
  induction way with
  | here => nofun
  | within trailing _ ih =>
      intro frame among
      rcases List.mem_append.mp among with inner | outermost
      · exact ih frame inner
      · cases List.mem_singleton.mp outermost
        cases trailing with
        | value => exact .inl rfl
        | operand => exact .inr (.inl rfl)
        | right _ => exact .inr (.inr rfl)

/-! ### Where a closing brace is next -/

theorem Expression.head_ne_rightBrace (tree : Expression) :
    (tree.spelling .tight).head? ≠ some (.mark .rightBrace) := by
  match tree with
  | .binary operator left right place =>
      have leftHead := head_ne_rightBrace left
      cases written : left.spelling .tight with
      | nil => simp [spelling, written, operator.kind_ne_rightBrace]
      | cons kind others =>
          rw [written] at leftHead
          simpa [spelling, written] using leftHead
  | .unary operator operand place => simp [spelling, operator.kind_ne_rightBrace]
  | .conditional conditions blocks otherwise place =>
      cases conditions <;> cases blocks <;> cases otherwise <;>
        simp [spelling, spellings, blockSpellings, otherwiseSpelling, Spelling.arms]
  | .number _ _ => simp [spelling]
  | .truth _ _ => simp [spelling]
  | .memberName _ _ => simp [spelling]
  | .declaration _ _ _ => simp [spelling]
  | .pipeline _ _ _ => simp [spelling]
  | .parenthesized _ _ => simp [spelling]
  | .call _ _ _ => simp [spelling]
  | .result _ _ => simp [spelling]
  | .loop _ _ _ => simp [spelling]
  | .void _ => simp [spelling]

theorem Laid.element_next {element : Expression} {others : List Segment} {tokens : List Token}
    {behind : List TokenItem} (laid : Laid (.tree .element element :: others) tokens behind)
    (more : List Token.Kind) :
    (Segment.spelling (.tree .element element :: others) ++ more).head? ≠
      some (.mark .rightBrace) := by
  cases laid with
  | @tree _ _ _ first _ _ solid stamped _ =>
      have placed := stamped.place solid
      have head := element.head_ne_rightBrace
      rw [Segment.spelling_tree, ← stamped.kinds]
      rw [← stamped.kinds] at head
      cases first with
      | nil => cases placed
      | cons token tokens => exact head

/-! ### The blocks that empty expressions end -/

/-- An element stands last in a block of a program: the block is closed behind it. -/
structure LastInBlock (program : Program) (block : Frame) (outer : List Frame)
    (element : Expression) : Prop where
  stands : Below program.segments (block :: outer) element
  role : block.role = .element
  solid : element.isVoid = false
  closed : ∃ rest, block.behind = .token (.mark .rightBrace) :: rest

/-- A tree that is followed by a closing brace is what the last element of the closed
block ends with. -/
theorem ends_block {program : Program} {tokens : List Token} {behind : List TokenItem}
    (laid : Laid program.segments tokens behind) {frames : List Frame} {part : Expression}
    (found : Below program.segments frames part)
    (unnamed : ∀ name place, part ≠ .memberName name place)
    (next : (Frame.kindsBehind frames).head? = some (.mark .rightBrace)) :
    ∃ tails block outer element, frames = tails ++ block :: outer ∧ Ends element tails part ∧
      LastInBlock program block outer element := by
  -- Outwards along the frames: as long as a node ends with the part, the same brace is
  -- next behind the node.
  induction found with
  | @direct frame part whole =>
      exfalso
      obtain ⟨before, role, after⟩ := frame
      obtain ⟨_, elements, _, _, standing⟩ := List.map_eq_append_iff.mp whole
      obtain ⟨_, later, _, _, following⟩ := List.map_eq_cons_iff.mp standing
      rw [whole] at laid
      obtain ⟨_, _, _, _, _, _, laidBehind, _⟩ := laid.around
      cases later with
      | nil =>
          cases following
          cases next
      | cons element later =>
          cases following
          exact laidBehind.element_next [] next
  | @deeper frame outer node part found whole ih =>
      obtain ⟨_, _, _, _, _, _, stampedNode⟩ := laid.stretch found
      have laidNode := stampedNode.laid (Frame.solid_of_around whole)
      rw [whole] at laidNode
      obtain ⟨admitted, _, _, _, _, _, laidBehind, _⟩ := laidNode.around
      rcases Expression.part_cases whole with trailing | member | stands
      · have unnamedNode : ∀ name place, node ≠ .memberName name place := by
          rintro name place rfl
          cases trailing
        have nextNode : (Frame.kindsBehind outer).head? = some (.mark .rightBrace) := by
          cases trailing <;> exact next
        obtain ⟨tails, block, others, element, rfl, way, closed⟩ := ih unnamedNode nextNode
        exact ⟨frame :: tails, block, others, element, rfl, way.trailing trailing, closed⟩
      · rw [member] at admitted
        obtain ⟨name, place, named⟩ := admitted
        exact absurd named (unnamed name place)
      · obtain ⟨before, role, after⟩ := frame
        cases stands with
        | element => exact absurd next (laidBehind.element_next _)
        | brace =>
            exact ⟨[], _, outer, part, rfl, .here, .deeper found whole, rfl, admitted, _, rfl⟩
        | token other => exact absurd (Option.some.inj next) other

theorem Frame.around_injective {frame : Frame} {part other : Expression}
    (same : frame.around part = frame.around other) : part = other := by
  obtain ⟨_, parts⟩ := List.append_inj same rfl
  cases parts
  rfl

theorem Below.around_eq {root : List Segment} {block other : Frame} {outer : List Frame}
    {part next : Expression} (found : Below root (block :: outer) part)
    (again : Below root (other :: outer) next) : block.around part = other.around next := by
  induction outer generalizing block other part next with
  | nil =>
      cases found with
      | deeper nothing _ => cases nothing
      | direct whole =>
          cases again with
          | deeper nothing _ => cases nothing
          | direct same => exact whole.symm.trans same
  | cons frame outer ih =>
      cases found with
      | deeper inner whole =>
          cases again with
          | deeper innerAgain same =>
              cases Frame.around_injective (ih inner innerAgain)
              exact whole.symm.trans same

/-- A block has one last element. -/
theorem LastInBlock.unique {program : Program} {block other : Frame} {outer : List Frame}
    {element next : Expression} (last : LastInBlock program block outer element)
    (again : LastInBlock program other outer next) (same : block.behind = other.behind) :
    block = other ∧ element = next := by
  have around := last.stands.around_eq again.stands
  obtain ⟨before, role, behind⟩ := block
  obtain ⟨otherBefore, otherRole, otherBehind⟩ := other
  cases same
  obtain ⟨rfl, parts⟩ := List.append_inj' around rfl
  cases parts
  exact ⟨rfl, rfl⟩

/-- An empty expression with a place ends the last element of a block, and the brace that
closes the block has this place. -/
def ClosedBy (program : Program) (tokens : List Token) (frames : List Frame) (place : Location) :
    Prop :=
  ∃ tails block outer element before after, frames = tails ++ block :: outer ∧
    Ends element tails (.void place) ∧ LastInBlock program block outer element ∧
    solidTokens tokens = before ++ ⟨.mark .rightBrace, place⟩ :: after ∧
    before.map Token.kind = Frame.kindsBefore (block :: outer) ++ element.spelling .tight ∧
    .mark .rightBrace :: after.map Token.kind = Frame.kindsBehind (block :: outer)

/-- Where the empty expressions of a program stand that is read from tokens. -/
structure VoidsConfined (program : Program) (tokens : List Token) : Prop where
  reached : program.Reached
  excluded : ∀ frame outer place, Below program.segments (frame :: outer) (.void place) →
    frame.role ∉ [Role.element, .argument, .condition, .index, .content, .left]
  closed : ∀ frames place, Below program.segments frames (.void place) →
    ClosedBy program tokens frames place
  unique : ∀ block other outer element next tails more place later,
    LastInBlock program block outer element → LastInBlock program other outer next →
      block.behind = other.behind → Ends element tails (.void place) →
        Ends next more (.void later) → block = other ∧ tails = more ∧ place = later

section Confined

variable {program : Program} {tokens : List Token}

theorem closedBy_of_laid {frames : List Frame} {place : Location}
    (laid : Laid program.segments (solidTokens tokens) [])
    (found : Below program.segments frames (.void place)) :
    ClosedBy program tokens frames place := by
  obtain ⟨first, stretch, last, split, before, behind, stamped⟩ := laid.stretch found
  rw [List.append_nil] at stamped
  obtain ⟨rfl, brace⟩ := stamped.brace rfl
  cases last with
  | nil => cases brace
  | cons token after =>
      cases brace
      have next : (Frame.kindsBehind frames).head? = some (.mark .rightBrace) := by
        rw [← behind]
        rfl
      obtain ⟨tails, block, outer, element, rfl, way, lastInBlock⟩ :=
        ends_block laid found (by nofun) next
      refine ⟨tails, block, outer, element, first, after, rfl, way, lastInBlock, ?_, ?_, ?_⟩
      · rw [split, List.append_nil]
        rfl
      · rw [before, Frame.kindsBefore_append, way.spelling]
        exact congrArg _ (List.append_nil _).symm
      · rw [Frame.kindsBehind_append, way.nothing_behind] at behind
        exact behind

theorem voidsConfined (laid : Laid program.segments (solidTokens tokens) []) :
    VoidsConfined program tokens where
  reached := laid.reached
  excluded := by
    intro frame outer place found
    obtain ⟨tails, block, others, element, _, _, split, way, last, _⟩ := closedBy_of_laid laid found
    cases tails with
    | nil =>
        cases way.of_nil rfl
        cases last.solid
    | cons innermost tails =>
        obtain ⟨rfl, _⟩ := List.cons.inj split
        rcases way.role frame List.mem_cons_self with role | role | role <;> rw [role] <;> decide
  closed := fun _ _ found => closedBy_of_laid laid found
  unique := by
    intro block other outer element next tails more place later last again same way otherWay
    obtain ⟨rfl, rfl⟩ := last.unique again same
    exact ⟨rfl, way.unique otherWay⟩

end Confined

/-- In a program that is parsed from tokens or from a text, the empty expression is no
element, argument, condition, index, content or left operand. It ends the last element of
a block, through values and operands only, with the place of the brace that closes the
block; and one block has one at most. -/
theorem parse_voidsConfined :
    (∀ {tokens : List Token} {program : Program}, parseTokens tokens = .ok program →
      VoidsConfined program tokens) ∧
    (∀ {source : String} {program : Program}, parse source = .ok program →
      ∃ tokens, tokenize source = .ok tokens ∧ VoidsConfined program tokens) := by
  constructor
  · intro tokens program parsed
    exact voidsConfined (laid_of_parseTokens parsed)
  · intro source program parsed
    obtain ⟨tokens, pending, laid⟩ := Parser.laid_of_program parsed
    refine ⟨tokens, ?_, voidsConfined laid⟩
    have items : Source.items (Lexer.ofString source) = tokens.map .ok := pending
    have read : tokenize source = allOrError (Source.items (Lexer.ofString source)) := rfl
    rw [read, items]
    exact allOrError_map_ok tokens

def bareDifferenceFrames : List Frame :=
  [⟨[.token (.keyword .return)], .value, []⟩,
    ⟨[.token (.boolean .not)], .operand, []⟩,
    ⟨[.tree .left (.call "f" [] ⟨0, 15⟩), .token (.arithmetic .subtract)], .right, []⟩,
    ⟨[.token (.keyword .while), .token (.mark .leftParenthesis),
        .tree .condition (.truth true ⟨0, 7⟩), .token (.mark .rightParenthesis),
        .token (.mark .leftBrace)],
      .element, [.token (.mark .rightBrace)]⟩,
    ⟨[], .element, []⟩]

def bareDifferenceLoop : Expression :=
  .loop (.truth true ⟨0, 7⟩)
    [.binary (.arithmetic .subtract) (.call "f" [] ⟨0, 15⟩)
      (.unary (.boolean .not) (.result (.void ⟨0, 27⟩) ⟨0, 22⟩) ⟨0, 21⟩) ⟨0, 15⟩]
    ⟨0, 0⟩

/-- From tokens and from a text: three steps lead from a bare result to its block. -/
theorem parse_voidsConfined_of_bareDifference :
    (parseTokens bareResultTokens = .ok ⟨[fieldDifference, bareResultLoop]⟩ ∧
      ClosedBy ⟨[fieldDifference, bareResultLoop]⟩ bareResultTokens bareResultFrames ⟨17, 0⟩) ∧
    parse "while (true) { f() - !ret; }" = .ok ⟨[bareDifferenceLoop]⟩ ∧
      ∃ tokens, tokenize "while (true) { f() - !ret; }" = .ok tokens ∧
        ClosedBy ⟨[bareDifferenceLoop]⟩ tokens bareDifferenceFrames ⟨0, 27⟩ := by
  have parsedTokens : parseTokens bareResultTokens = .ok ⟨[fieldDifference, bareResultLoop]⟩ := rfl
  have parsed : parse "while (true) { f() - !ret; }" = .ok ⟨[bareDifferenceLoop]⟩ := rfl
  refine ⟨⟨parsedTokens, ?_⟩, parsed, ?_⟩
  · exact (parse_voidsConfined.1 parsedTokens).closed _ _ below_bareResultFrames
  · obtain ⟨tokens, read, confined⟩ := parse_voidsConfined.2 parsed
    refine ⟨tokens, read, confined.closed _ _ ?_⟩
    exact .deeper (.deeper (.deeper (.deeper (.direct rfl) rfl) rfl) rfl) rfl

end Shading
