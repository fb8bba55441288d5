import Shading.Proofs.Grammar.Fidelity
import Shading.Proofs.Grammar.Segments

/-!
Every node carries the place of its first token.

A tree is stamped if it is spelled by some tokens and every node in it carries the place
of the first of its own. The empty expression has no tokens and carries the place of the
brace behind it. Derivations give stamped trees, rule by rule: leading semicolons are
passed over before the place is taken, and a left operand that grows keeps its place.
-/

namespace Shading

/-! ### Stamped trees -/

def Role.Admits : Role → Expression → Prop
  | element, part => part.isVoid = false
  | member, part => ∃ name place, part = .memberName name place
  | _, _ => True

mutual

/-- A tree is spelled by some tokens, in front of some items, and its nodes carry the
places of their first tokens. -/
inductive Stamped : Expression → List Token → List TokenItem → Prop where
  | node {tree : Expression} {tokens : List Token} {behind : List TokenItem}
      (solid : tree.isVoid = false) (paired : tree.Paired)
      (place : tokens.head?.map Token.location = some tree.location)
      (laid : Laid tree.segments tokens behind) : Stamped tree tokens behind
  | void {place : Location} {behind : List TokenItem} :
      Stamped (.void place) [] (.ok ⟨.mark .rightBrace, place⟩ :: behind)

/-- Segments are spelled by some tokens, in front of some items, and the trees among
them are stamped. -/
inductive Laid : List Segment → List Token → List TokenItem → Prop where
  | nothing {behind : List TokenItem} : Laid [] [] behind
  | token {kind : Token.Kind} {place : Location} {segments : List Segment} {tokens : List Token}
      {behind : List TokenItem} (others : Laid segments tokens behind) :
      Laid (.token kind :: segments) (⟨kind, place⟩ :: tokens) behind
  | tree {role : Role} {part : Expression} {segments : List Segment} {first others : List Token}
      {behind : List TokenItem} (admitted : role.Admits part)
      (stamped : Stamped part first (others.map .ok ++ behind))
      (laid : Laid segments others behind) :
      Laid (.tree role part :: segments) (first ++ others) behind

end

theorem Stamped.place {tree : Expression} {tokens : List Token} {behind : List TokenItem}
    (stamped : Stamped tree tokens behind) (solid : tree.isVoid = false) :
    tokens.head?.map Token.location = some tree.location := by
  cases stamped with
  | node _ _ place _ => exact place
  | void => cases solid

theorem Stamped.brace {tree : Expression} {tokens others : List Token}
    (stamped : Stamped tree tokens (others.map .ok)) (empty : tree.isVoid = true) :
    tokens = [] ∧ others.head? = some ⟨.mark .rightBrace, tree.location⟩ := by
  generalize same : others.map Except.ok = behind at stamped
  cases stamped with
  | node solid _ _ _ =>
      rw [solid] at empty
      cases empty
  | void =>
      cases others with
      | nil => cases same
      | cons token others =>
          cases same
          exact ⟨rfl, rfl⟩

theorem Stamped.paired {tree : Expression} {tokens : List Token} {behind : List TokenItem}
    (stamped : Stamped tree tokens behind) : tree.Paired := by
  cases stamped with
  | node _ paired _ _ => exact paired
  | void => trivial

theorem Stamped.laid {tree : Expression} {tokens : List Token} {behind : List TokenItem}
    (stamped : Stamped tree tokens behind) (solid : tree.isVoid = false) :
    Laid tree.segments tokens behind := by
  cases stamped with
  | node _ _ _ laid => exact laid
  | void => cases solid

theorem Stamped.left_place {operator : Operator} {left right : Expression} {place : Location}
    {tokens : List Token} {behind : List TokenItem}
    (stamped : Stamped (.binary operator left right place) tokens behind) :
    left.isVoid = false ∧ left.location = place := by
  have placed := stamped.place rfl
  cases stamped.laid rfl with
  | @tree _ _ _ first others _ _ stampedLeft following =>
      cases following with
      | token _ =>
          generalize next : List.map Except.ok (_ :: _) ++ behind = later at stampedLeft
          cases stampedLeft with
          | node solid _ atHead _ =>
              obtain ⟨token, found, _⟩ := Option.map_eq_some_iff.mp atHead
              rw [List.head?_append, found, Option.some_or, ← found, atHead] at placed
              exact ⟨solid, Option.some.inj placed⟩
          | void =>
              have sameToken := Except.ok.inj (List.cons.inj next).1
              exact absurd (congrArg Token.kind sameToken) operator.kind_ne_rightBrace

mutual

theorem Stamped.kinds {tree : Expression} {tokens : List Token} {behind : List TokenItem}
    (stamped : Stamped tree tokens behind) : tokens.map Token.kind = tree.spelling .tight := by
  match stamped with
  | .node _ _ _ laid => rw [laid.kinds, Expression.spelling_segments]
  | .void => rfl

theorem Laid.kinds {segments : List Segment} {tokens : List Token} {behind : List TokenItem}
    (laid : Laid segments tokens behind) : tokens.map Token.kind = Segment.spelling segments := by
  match laid with
  | .nothing => rfl
  | .token others => rw [List.map_cons, others.kinds, Segment.spelling_token]
  | .tree _ stamped others =>
      rw [List.map_append, stamped.kinds, others.kinds, Segment.spelling_tree]

end

theorem Laid.append {first second : List Segment} {tokens others : List Token}
    {behind : List TokenItem} (laid : Laid first tokens (others.map .ok ++ behind))
    (following : Laid second others behind) : Laid (first ++ second) (tokens ++ others) behind := by
  match laid with
  | .nothing => exact following
  | .token more => exact .token (more.append following)
  | .tree admitted stamped more =>
      rw [List.append_assoc]
      refine .tree admitted ?_ (more.append following)
      rw [List.map_append, List.append_assoc]
      exact stamped

theorem Laid.split {first second : List Segment} {tokens : List Token} {behind : List TokenItem}
    (laid : Laid (first ++ second) tokens behind) :
    ∃ before others, tokens = before ++ others ∧ Laid first before (others.map .ok ++ behind) ∧
      Laid second others behind := by
  induction first generalizing tokens with
  | nil => exact ⟨[], tokens, rfl, .nothing, laid⟩
  | cons segment segments ih =>
      cases laid with
      | @token kind place _ tokens _ more =>
          obtain ⟨before, others, rfl, laidBefore, laidOthers⟩ := ih more
          exact ⟨⟨kind, place⟩ :: before, others, rfl, .token laidBefore, laidOthers⟩
      | @tree role part _ start tokens _ admitted stamped more =>
          obtain ⟨before, others, rfl, laidBefore, laidOthers⟩ := ih more
          rw [List.map_append, List.append_assoc] at stamped
          refine ⟨start ++ before, others, (List.append_assoc _ _ _).symm, ?_, laidOthers⟩
          exact .tree admitted stamped laidBefore

theorem Laid.around {frame : Frame} {part : Expression} {tokens : List Token}
    {behind : List TokenItem} (laid : Laid (frame.around part) tokens behind) :
    frame.role.Admits part ∧ ∃ first stretch last, tokens = first ++ stretch ++ last ∧
      first.map Token.kind = Segment.spelling frame.before ∧ Laid frame.behind last behind ∧
        Stamped part stretch (last.map .ok ++ behind) := by
  obtain ⟨first, others, rfl, laidBefore, laidOthers⟩ := laid.split
  cases laidOthers with
  | @tree _ _ _ stretch last _ admitted stamped laidBehind =>
      exact ⟨admitted, first, stretch, last, (List.append_assoc _ _ _).symm, laidBefore.kinds,
        laidBehind, stamped⟩

theorem Frame.solid_of_around {frame : Frame} {node part : Expression}
    (whole : node.segments = frame.around part) : node.isVoid = false := by
  cases node with
  | void place =>
      exact absurd whole.symm (List.append_ne_nil_of_right_ne_nil _ (List.cons_ne_nil _ _))
  | _ => rfl

/-- At any depth, the tokens of a node stand between those of what stands beside the way
to it. -/
theorem Laid.stretch {root : List Segment} {frames : List Frame} {part : Expression}
    {tokens : List Token} {behind : List TokenItem} (laid : Laid root tokens behind)
    (found : Below root frames part) :
    ∃ first stretch last, tokens = first ++ stretch ++ last ∧
      first.map Token.kind = Frame.kindsBefore frames ∧
        last.map Token.kind = Frame.kindsBehind frames ∧
          Stamped part stretch (last.map .ok ++ behind) := by
  induction found with
  | direct whole =>
      rw [whole] at laid
      obtain ⟨_, first, stretch, last, split, before, after, stamped⟩ := laid.around
      refine ⟨first, stretch, last, split, before, ?_, stamped⟩
      rw [after.kinds, Frame.kindsBehind, Frame.kindsBehind, List.append_nil]
  | deeper _ whole ih =>
      obtain ⟨first, middle, last, rfl, before, after, stampedNode⟩ := ih
      have laidNode := stampedNode.laid (Frame.solid_of_around whole)
      rw [whole] at laidNode
      obtain ⟨_, start, stretch, rest, rfl, beforePart, afterPart, stamped⟩ := laidNode.around
      refine ⟨first ++ start, stretch, rest ++ last, ?_, ?_, ?_, ?_⟩
      · simp only [List.append_assoc]
      · rw [List.map_append, before, beforePart, Frame.kindsBefore]
      · rw [List.map_append, after, afterPart.kinds, Frame.kindsBehind]
      · rw [List.map_append, List.append_assoc]
        exact stamped

theorem Laid.reached {program : Program} {tokens : List Token} {behind : List TokenItem}
    (laid : Laid program.segments tokens behind) : program.Reached := by
  apply Program.reached_of_paired
  intro frames node found
  obtain ⟨_, _, _, _, _, _, stamped⟩ := laid.stretch found
  exact stamped.paired

/-! ### Items without semicolons -/

def solidTokens (tokens : List Token) : List Token :=
  tokens.filter fun token => decide (token.kind ≠ .mark .semicolon)

def solidItems : List TokenItem → List TokenItem
  | [] => []
  | .ok token :: others =>
    if token.kind = .mark .semicolon then solidItems others else .ok token :: solidItems others
  | .error failure :: others => .error failure :: solidItems others

theorem solidItems_token {token : Token} (solid : token.kind ≠ .mark .semicolon)
    (others : List TokenItem) :
    solidItems (.ok token :: others) = .ok token :: solidItems others :=
  if_neg solid

theorem solidItems_map_ok (tokens : List Token) :
    solidItems (tokens.map .ok) = (solidTokens tokens).map .ok := by
  induction tokens with
  | nil => rfl
  | cons token others ih =>
      rw [List.map_cons, solidTokens, List.filter_cons]
      by_cases semicolon : token.kind = .mark .semicolon
      · rw [solidItems, if_pos semicolon, ih]
        simp [semicolon, solidTokens]
      · rw [solidItems_token semicolon, ih]
        simp [semicolon, solidTokens]

namespace Grammar

/-- Segments are spelled at the head of some items, semicolons apart, and the trees
among them are stamped. -/
def Marks (input : List TokenItem) (segments : List Segment) (rest : List TokenItem) : Prop :=
  ∃ tokens, solidItems input = tokens.map .ok ++ solidItems rest ∧
    Laid segments tokens (solidItems rest)

def MarksTree (input : List TokenItem) (tree : Expression) (rest : List TokenItem) : Prop :=
  ∃ tokens, solidItems input = tokens.map .ok ++ solidItems rest ∧
    Stamped tree tokens (solidItems rest)

section Rules

variable {input middle rest : List TokenItem} {segments others : List Segment}
  {whole part : Expression} {role : Role} {kind : Token.Kind} {place : Location}

theorem Marks.nothing : Marks input [] input := ⟨[], rfl, .nothing⟩

theorem Marks.token (solid : kind ≠ .mark .semicolon) (following : Marks input segments rest) :
    Marks (.ok ⟨kind, place⟩ :: input) (.token kind :: segments) rest := by
  obtain ⟨tokens, split, laid⟩ := following
  refine ⟨⟨kind, place⟩ :: tokens, ?_, .token laid⟩
  rw [solidItems_token solid, split]
  rfl

theorem Marks.tree (admitted : role.Admits part) (first : MarksTree input part middle)
    (following : Marks middle segments rest) : Marks input (.tree role part :: segments) rest := by
  obtain ⟨tokens, split, stamped⟩ := first
  obtain ⟨others, splitOthers, laid⟩ := following
  rw [splitOthers] at split stamped
  refine ⟨tokens ++ others, ?_, .tree admitted stamped laid⟩
  rw [split, List.map_append, List.append_assoc]

theorem Marks.append (first : Marks input segments middle) (following : Marks middle others rest) :
    Marks input (segments ++ others) rest := by
  obtain ⟨tokens, split, laid⟩ := first
  obtain ⟨more, splitMore, laidMore⟩ := following
  rw [splitMore] at split laid
  refine ⟨tokens ++ more, ?_, laid.append laidMore⟩
  rw [split, List.map_append, List.append_assoc]

theorem MarksTree.token (written : whole.segments = .token kind :: segments)
    (semicolonFree : kind ≠ .mark .semicolon) (paired : whole.Paired)
    (placed : whole.location = place) (following : Marks input segments rest) :
    MarksTree (.ok ⟨kind, place⟩ :: input) whole rest := by
  obtain ⟨tokens, split, laid⟩ := following
  have solid : whole.isVoid = false := by
    cases whole with
    | void _ => cases written
    | _ => rfl
  refine ⟨⟨kind, place⟩ :: tokens, ?_, .node solid paired ?_ ?_⟩
  · rw [solidItems_token semicolonFree, split]
    rfl
  · rw [placed]
    rfl
  · rw [written]
    exact .token laid

/-- A tree that grows from its left operand keeps the place of it. -/
theorem MarksTree.grow {operator : Operator} {left right : Expression}
    (first : MarksTree input left middle) (placed : left.location = place)
    (solid : left.isVoid = false)
    (following : Marks middle (.token operator.kind ::
      .tree operator.rightRole right :: operator.closing.map .token) rest) :
    MarksTree input (.binary operator left right place) rest := by
  obtain ⟨tokens, split, stamped⟩ := first
  obtain ⟨others, splitOthers, laid⟩ := following
  rw [splitOthers] at split stamped
  refine ⟨tokens ++ others, ?_, .node rfl trivial ?_ (.tree trivial stamped laid)⟩
  · rw [split, List.map_append, List.append_assoc]
  · have atHead := stamped.place solid
    obtain ⟨token, found, _⟩ := Option.map_eq_some_iff.mp atHead
    rw [List.head?_append, found, Option.some_or, ← found, atHead, placed]
    rfl

theorem MarksTree.close {bracePlace : Location}
    (empty : MarksTree input (.void place) (.ok ⟨.mark .rightBrace, bracePlace⟩ :: rest)) :
    Marks input [.token (.mark .rightBrace)] rest := by
  obtain ⟨tokens, split, stamped⟩ := empty
  cases stamped with
  | node solid _ _ _ => cases solid
  | void =>
      exact ⟨[⟨.mark .rightBrace, place⟩], split, .token .nothing⟩

end Rules

/-! ### Rule by rule -/

theorem ReadsOperand.location {token : Token} {input rest : List TokenItem} {tree : Expression}
    (derived : ReadsOperand token input tree rest) : tree.location = token.location := by
  cases derived <;> rfl

theorem ReadsStatement.location {token : Token} {input rest : List TokenItem} {tree : Expression}
    (derived : ReadsStatement token input tree rest) : tree.location = token.location := by
  cases derived <;> rfl

def argumentSegments : ArgumentPlace → List Expression → List Segment
  | .afterArgument, values => Segment.furtherArguments values
  | _, values => Segment.arguments values

mutual

theorem ReadsExpression.marks {bound : Precedence} {input rest : List TokenItem}
    {tree : Expression} (derived : ReadsExpression bound input tree rest) :
    MarksTree input tree rest := by
  match derived with
  | .separator following => exact following.marks
  | .brace => exact ⟨[], rfl, .void⟩
  | .statement form accessed => exact (accessed.marks form.marks form.location form.solid).1
  | .operand form accessed chained =>
      obtain ⟨marked, placed⟩ := accessed.marks form.marks form.location form.solid
      exact chained.marks marked placed (accessed.solid form.solid)

theorem ReadsOperand.marks {token : Token} {input rest : List TokenItem} {tree : Expression}
    (derived : ReadsOperand token input tree rest) : MarksTree (.ok token :: input) tree rest := by
  match derived with
  | .number => exact .token rfl (by simp) trivial rfl .nothing
  | .truth => exact .token rfl (by simp) trivial rfl .nothing
  | .falsehood => exact .token rfl (by simp) trivial rfl .nothing
  | .declaration =>
      exact .token rfl (by simp) trivial rfl (.token (by simp) (.token (by simp) .nothing))
  | .pipeline named =>
      cases pipelineRole_kind named
      exact .token rfl (by simp) trivial rfl (.token (by simp) (.token (by simp) .nothing))
  | .call listed => exact .token rfl (by simp) trivial rfl (.token (by simp) listed.marks)
  | .unary stands _ following =>
      rw [Operator.kind_of_operator? stands]
      exact .token rfl (operator_solid _) trivial rfl (.tree trivial following.marks .nothing)
  | .parenthesized following =>
      exact .token rfl (by simp) trivial rfl
        (.tree trivial following.marks (.token (by simp) .nothing))

-- What was read before is a premise here, since the tree grows around it.
theorem ReadsAccesses.marks {start : Location} {left tree : Expression}
    {whole input rest : List TokenItem} (derived : ReadsAccesses start left input tree rest)
    (marked : MarksTree whole left input) (placed : left.location = start)
    (solid : left.isVoid = false) :
    MarksTree whole tree rest ∧ tree.location = start := by
  match derived with
  | .stop _ => exact ⟨marked, placed⟩
  | .member others =>
      exact others.marks (marked.grow placed solid (.token (by simp)
        (.tree ⟨_, _, rfl⟩ (.token rfl (by simp) trivial rfl .nothing) .nothing))) rfl rfl
  | .index following others =>
      exact others.marks (marked.grow placed solid (.token (by simp)
        (.tree trivial following.marks (.token (by simp) .nothing)))) rfl rfl

theorem ReadsChain.marks {bound : Precedence} {start : Location} {left tree : Expression}
    {whole input rest : List TokenItem} (derived : ReadsChain bound start left input tree rest)
    (marked : MarksTree whole left input) (placed : left.location = start)
    (solid : left.isVoid = false) : MarksTree whole tree rest := by
  match derived with
  | .stop _ => exact marked
  | .extend stands _ _ following others =>
      rw [Operator.kind_of_operator? stands] at marked
      refine others.marks (marked.grow placed solid (.token (operator_solid _) ?_)) rfl rfl
      rw [operator_closing stands, Operator.rightRole_of_plain (operator?_isAccess stands)]
      exact .tree trivial following.marks .nothing

theorem ReadsArguments.marks {standing : ArgumentPlace} {input rest : List TokenItem}
    {values : List Expression} (derived : ReadsArguments standing input values rest) :
    Marks input (argumentSegments standing values) rest := by
  match derived with
  | .close complete =>
      cases standing with
      | afterComma => exact absurd rfl complete
      | atFirst => exact .token (by simp) .nothing
      | afterArgument => exact .token (by simp) .nothing
  | .comma others =>
      have marked := others.marks
      cases values with
      | nil => exact absurd rfl others.nonempty
      | cons value values => exact .token (by simp) marked
  | .argument expected _ following others =>
      have marked := others.marks
      cases standing with
      | afterArgument => exact absurd rfl expected
      | atFirst => exact .tree trivial following.marks marked
      | afterComma => exact .tree trivial following.marks marked

theorem ReadsStatement.marks {token : Token} {input rest : List TokenItem} {tree : Expression}
    (derived : ReadsStatement token input tree rest) :
    MarksTree (.ok token :: input) tree rest := by
  match derived with
  | .result following =>
      exact .token rfl (by simp) trivial rfl (.tree trivial following.marks .nothing)
  | .conditional begun continued =>
      refine .token rfl (by simp) ?_ rfl ?_
      · simp [Expression.Paired]
      · show Marks input (Segment.arm _ _ ++ _ ++ _) rest
        rw [List.append_assoc]
        exact begun.marks.append continued.marks
  | .loop armed => exact .token rfl (by simp) trivial rfl armed.marks

theorem ReadsArm.marks {input rest : List TokenItem} {armed : Arm}
    (derived : ReadsArm input armed rest) :
    Marks input (Segment.arm armed.condition armed.block) rest := by
  match derived with
  | .arm following blocked =>
      exact .token (by simp) (.tree trivial following.marks
        (.token (by simp) (.token (by simp) blocked.marks)))

theorem ReadsFurtherArms.marks {input rest : List TokenItem} {others : List Arm}
    {otherwise : Option (List Expression)}
    (derived : ReadsFurtherArms input others otherwise rest) :
    Marks input
      (Segment.arms .elif (others.map Arm.condition) (others.map Arm.block) ++
        Segment.otherwise otherwise) rest := by
  match derived with
  | .stop _ => exact .nothing
  | .further armed continued =>
      refine .token (by simp) ?_
      show Marks _ (Segment.arm _ _ ++ _ ++ _) rest
      rw [List.append_assoc]
      exact armed.marks.append continued.marks
  | .last blocked => exact .token (by simp) (.token (by simp) blocked.marks)

theorem ReadsBlock.marks {input rest : List TokenItem} {body : List Expression}
    (derived : ReadsBlock input body rest) : Marks input (Segment.blockRest body) rest := by
  match derived with
  | .close following => exact following.marks.close
  | .element following solid blocked => exact .tree solid following.marks blocked.marks

end

theorem OnlySeparators.marks {input : List TokenItem} (separators : OnlySeparators input) :
    Marks input [] [] := by
  refine ⟨[], ?_, .nothing⟩
  induction input with
  | nil => rfl
  | cons item others ih =>
      obtain ⟨⟨place, rfl⟩, following⟩ := List.forall_mem_cons.mp separators
      exact ih following

theorem ReadsProgram.marks {input : List TokenItem} {trees : List Expression}
    (derived : ReadsProgram input trees) : Marks input (trees.map (.tree .element)) [] := by
  induction derived with
  | finish separators => exact separators.marks
  | expression following solid _ ih => exact .tree solid following.marks ih

end Grammar

/-- A program that is read from any source is laid out over the tokens of the source,
semicolons apart. -/
theorem Parser.laid_of_program {σ : Type} [Source σ TokenItem] [LawfulSource σ]
    {parser : Parser σ} {program : Program} (parsed : parser.program.1 = .ok program) :
    ∃ tokens, parser.pending = tokens.map .ok ∧ Laid program.segments (solidTokens tokens) [] := by
  have derived := Parser.program_iff.mp parsed
  obtain ⟨tokens, only, _⟩ := derived.takes
  rw [List.append_nil] at only
  refine ⟨tokens, only, ?_⟩
  obtain ⟨laidTokens, split, laid⟩ := derived.marks
  rw [only, solidItems_map_ok, solidItems, List.append_nil] at split
  have same : solidTokens tokens = laidTokens :=
    (List.map_inj_right fun _ _ => Except.ok.inj).mp split
  rw [same]
  exact laid

theorem laid_of_parseTokens {tokens : List Token} {program : Program}
    (parsed : parseTokens tokens = .ok program) :
    Laid program.segments (solidTokens tokens) [] := by
  obtain ⟨listed, pending, laid⟩ := Parser.laid_of_program parsed
  rw [Parser.ofSource, Lookahead.pending_ofSource, Source.items_list] at pending
  have same : tokens = listed := (List.map_inj_right fun _ _ => Except.ok.inj).mp pending
  rw [same]
  exact laid

/-- The tokens of a parsed program, semicolons apart, are those it is spelled with, one
by one. Any node that frames reach, which is every node at every depth, is spelled by a
stretch of them, between those that spell what stands beside the way to it; its place is
that of the first token of the stretch. The place of an empty expression, which no token
spells, is that of the closing brace behind it; and a binary node has the place of its left
operand. -/
theorem parseTokens_places {tokens : List Token} {program : Program}
    (parsed : parseTokens tokens = .ok program) :
    program.Reached ∧ (solidTokens tokens).map Token.kind = program.spelling .tight ∧
      (∀ frames node, Below program.segments frames node →
        ∃ first stretch last, solidTokens tokens = first ++ stretch ++ last ∧
          first.map Token.kind = Frame.kindsBefore frames ∧
          stretch.map Token.kind = node.spelling .tight ∧
          last.map Token.kind = Frame.kindsBehind frames ∧
          (node.isVoid = false → stretch.head?.map Token.location = some node.location) ∧
          (node.isVoid = true →
            stretch = [] ∧ last.head? = some ⟨.mark .rightBrace, node.location⟩)) ∧
      ∀ frames operator left right place,
        Below program.segments frames (.binary operator left right place) →
          left.location = place := by
  have laid := laid_of_parseTokens parsed
  refine ⟨laid.reached, ?_, ?_, ?_⟩
  · rw [laid.kinds, Program.segments, Segment.spelling_elements]
    rfl
  · intro frames node found
    obtain ⟨first, stretch, last, split, before, after, stamped⟩ := laid.stretch found
    refine ⟨first, stretch, last, split, before, stamped.kinds, after, stamped.place, ?_⟩
    intro empty
    rw [List.append_nil] at stamped
    exact stamped.brace empty
  · intro frames operator left right place found
    obtain ⟨_, _, _, _, _, _, stamped⟩ := laid.stretch found
    exact stamped.left_place.2

/-- The tokens of `; f().x - true; while (true) { !ret; }`, each on a line of its own. -/
def bareResultTokens : List Token :=
  [⟨.mark .semicolon, ⟨0, 0⟩⟩, ⟨.name "f", ⟨1, 0⟩⟩, ⟨.mark .leftParenthesis, ⟨2, 0⟩⟩,
    ⟨.mark .rightParenthesis, ⟨3, 0⟩⟩, ⟨.mark .dot, ⟨4, 0⟩⟩, ⟨.name "x", ⟨5, 0⟩⟩,
    ⟨.arithmetic .subtract, ⟨6, 0⟩⟩, ⟨.keyword .true, ⟨7, 0⟩⟩, ⟨.mark .semicolon, ⟨8, 0⟩⟩,
    ⟨.keyword .while, ⟨9, 0⟩⟩, ⟨.mark .leftParenthesis, ⟨10, 0⟩⟩, ⟨.keyword .true, ⟨11, 0⟩⟩,
    ⟨.mark .rightParenthesis, ⟨12, 0⟩⟩, ⟨.mark .leftBrace, ⟨13, 0⟩⟩,
    ⟨.boolean .not, ⟨14, 0⟩⟩, ⟨.keyword .return, ⟨15, 0⟩⟩, ⟨.mark .semicolon, ⟨16, 0⟩⟩,
    ⟨.mark .rightBrace, ⟨17, 0⟩⟩]

def fieldDifference : Expression :=
  .binary (.arithmetic .subtract)
    (.binary .member (.call "f" [] ⟨1, 0⟩) (.memberName "x" ⟨5, 0⟩) ⟨1, 0⟩)
    (.truth true ⟨7, 0⟩) ⟨1, 0⟩

def bareResultLoop : Expression :=
  .loop (.truth true ⟨11, 0⟩) [.unary (.boolean .not) (.result (.void ⟨17, 0⟩) ⟨15, 0⟩) ⟨14, 0⟩]
    ⟨9, 0⟩

def bareResultFrames : List Frame :=
  [⟨[.token (.keyword .return)], .value, []⟩,
    ⟨[.token (.boolean .not)], .operand, []⟩,
    ⟨[.token (.keyword .while), .token (.mark .leftParenthesis),
        .tree .condition (.truth true ⟨11, 0⟩), .token (.mark .rightParenthesis),
        .token (.mark .leftBrace)],
      .element, [.token (.mark .rightBrace)]⟩,
    ⟨[.tree .element fieldDifference], .element, []⟩]

theorem below_bareResultFrames :
    Below (Program.mk [fieldDifference, bareResultLoop]).segments bareResultFrames
      (.void ⟨17, 0⟩) :=
  .deeper (.deeper (.deeper (.direct rfl) rfl) rfl) rfl

theorem parseTokens_places_of_bareResult :
    parseTokens bareResultTokens = .ok ⟨[fieldDifference, bareResultLoop]⟩ ∧
      ∃ first last, solidTokens bareResultTokens = first ++ last ∧
        first.map Token.kind = Frame.kindsBefore bareResultFrames ∧
        last.head? = some ⟨.mark .rightBrace, ⟨17, 0⟩⟩ := by
  refine ⟨rfl, ?_⟩
  obtain ⟨first, stretch, last, split, before, _, _, _, closed⟩ :=
    (parseTokens_places (show parseTokens bareResultTokens = _ from rfl)).2.2.1 _ _
      below_bareResultFrames
  obtain ⟨rfl, brace⟩ := closed rfl
  rw [List.append_nil] at split
  exact ⟨first, last, split, before, brace⟩

end Shading
