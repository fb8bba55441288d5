import Shading.Proofs.Grammar.Yield

/-!
Where a node stands in its tree.

A node is written as a row of segments: tokens of its own, and other trees, each in the
role it plays there. A node at any depth is reached through frames, which keep what
stands beside the way to it; so they tell what is spelled in front of it and behind it.
-/

namespace Shading

/-- What a tree is for the program or the node that it is a part of. -/
inductive Role where
  | element
  | argument
  | condition
  | index
  | content
  | left
  | right
  | member
  | operand
  | value
deriving DecidableEq, Repr

def Operator.rightRole : Operator → Role
  | member => .member
  | index => .index
  | _ => .right

theorem Operator.kind_ne_rightBrace (operator : Operator) :
    operator.kind ≠ .mark .rightBrace := by
  cases operator <;> simp [Operator.kind]

theorem Operator.rightRole_of_plain {operator : Operator} (plain : operator.isAccess = false) :
    operator.rightRole = .right := by
  cases operator with
  | member => cases plain
  | index => cases plain
  | _ => rfl

theorem Operator.closing_of_plain {operator : Operator} (plain : operator.isAccess = false) :
    operator.closing = [] := by
  cases operator with
  | index => cases plain
  | _ => rfl

/-- A part of how something is written: a token, or a tree in some role. -/
inductive Segment where
  | token (kind : Token.Kind)
  | tree (role : Role) (part : Expression)

namespace Segment

def kinds : Segment → List Token.Kind
  | token kind => [kind]
  | tree _ part => part.spelling .tight

def furtherArguments : List Expression → List Segment
  | [] => [token (.mark .rightParenthesis)]
  | value :: others => token (.mark .comma) :: tree .argument value :: furtherArguments others

def arguments : List Expression → List Segment
  | [] => [token (.mark .rightParenthesis)]
  | value :: others => tree .argument value :: furtherArguments others

def blockRest (elements : List Expression) : List Segment :=
  elements.map (tree .element) ++ [token (.mark .rightBrace)]

def arm (condition : Expression) (elements : List Expression) : List Segment :=
  token (.mark .leftParenthesis) :: tree .condition condition ::
    token (.mark .rightParenthesis) :: token (.mark .leftBrace) :: blockRest elements

def arms (word : Token.Keyword) : List Expression → List (List Expression) → List Segment
  | condition :: conditions, block :: blocks =>
    token (.keyword word) :: (arm condition block ++ arms .elif conditions blocks)
  | _, _ => []

def otherwise : Option (List Expression) → List Segment
  | none => []
  | some block => token (.keyword .else) :: token (.mark .leftBrace) :: blockRest block

end Segment

namespace Expression

def segments : Expression → List Segment
  | number value _ => [.token (.number value)]
  | truth value _ => [.token (.keyword (if value then .true else .false))]
  | memberName name _ => [.token (.name name)]
  | declaration type name _ =>
    [.token (.keyword .var), .token (.typeName (.value type)), .token (.name name)]
  | pipeline role name _ => [.token (.mark .at), .token (.keyword role.word), .token (.name name)]
  | binary operator left right _ =>
    .tree .left left :: .token operator.kind :: .tree operator.rightRole right ::
      operator.closing.map .token
  | unary operator operand _ => [.token operator.kind, .tree .operand operand]
  | parenthesized inner _ =>
    [.token (.mark .leftParenthesis), .tree .content inner, .token (.mark .rightParenthesis)]
  | call name values _ =>
    .token (.name name) :: .token (.mark .leftParenthesis) :: Segment.arguments values
  | result value _ => [.token (.keyword .return), .tree .value value]
  | conditional conditions blocks otherwise _ =>
    Segment.arms .if conditions blocks ++ Segment.otherwise otherwise
  | loop condition block _ => .token (.keyword .while) :: Segment.arm condition block
  | void _ => []

/-- A conditional has as many blocks as conditions, so that its segments are all of it. -/
def Paired : Expression → Prop
  | conditional conditions blocks _ _ => blocks.length = conditions.length
  | _ => True

end Expression

def Program.segments (program : Program) : List Segment :=
  program.expressions.map (.tree .element)

/-! ### Children and segments -/

namespace Expression

def children : Expression → List Expression
  | binary _ left right _ => [left, right]
  | unary _ operand _ => [operand]
  | parenthesized inner _ => [inner]
  | call _ values _ => values
  | result value _ => [value]
  | conditional conditions blocks otherwise _ =>
    conditions ++ blocks.flatten ++ otherwise.getD []
  | loop condition block _ => condition :: block
  | _ => []

end Expression

namespace Segment

variable {child : Expression}

theorem mem_furtherArguments {values : List Expression} (among : child ∈ values) :
    tree .argument child ∈ furtherArguments values := by
  induction values with
  | nil => cases among
  | cons value values ih =>
      rcases List.mem_cons.mp among with rfl | later
      · exact List.mem_cons_of_mem _ List.mem_cons_self
      · exact List.mem_cons_of_mem _ (List.mem_cons_of_mem _ (ih later))

theorem mem_arguments {values : List Expression} (among : child ∈ values) :
    tree .argument child ∈ arguments values := by
  cases values with
  | nil => cases among
  | cons value values =>
      rcases List.mem_cons.mp among with rfl | later
      · exact List.mem_cons_self
      · exact List.mem_cons_of_mem _ (mem_furtherArguments later)

theorem mem_blockRest {elements : List Expression} (among : child ∈ elements) :
    tree .element child ∈ blockRest elements :=
  List.mem_append_left _ (List.mem_map_of_mem among)

theorem mem_arm {condition : Expression} {elements : List Expression}
    (among : child ∈ condition :: elements) : ∃ role, tree role child ∈ arm condition elements := by
  rcases List.mem_cons.mp among with rfl | inBlock
  · exact ⟨.condition, by simp [arm]⟩
  · exact ⟨.element, by simp [arm, mem_blockRest inBlock]⟩

theorem mem_arms {word : Token.Keyword} {conditions : List Expression}
    {blocks : List (List Expression)} (paired : blocks.length = conditions.length)
    (among : child ∈ conditions ++ blocks.flatten) :
    ∃ role, tree role child ∈ arms word conditions blocks := by
  induction conditions generalizing word blocks with
  | nil =>
      cases List.length_eq_zero_iff.mp paired
      cases among
  | cons condition conditions ih =>
      cases blocks with
      | nil => cases paired
      | cons block blocks =>
          have atArm : child ∈ condition :: block ∨ child ∈ conditions ++ blocks.flatten := by
            rw [List.flatten_cons, List.mem_append, List.mem_cons, List.mem_append] at among
            rw [List.mem_cons, List.mem_append]
            grind
          rcases atArm with here | later
          · obtain ⟨role, standing⟩ := mem_arm here
            exact ⟨role, List.mem_cons_of_mem _ (List.mem_append_left _ standing)⟩
          · obtain ⟨role, standing⟩ := @ih .elif blocks (Nat.succ.inj paired) later
            exact ⟨role, List.mem_cons_of_mem _ (List.mem_append_right _ standing)⟩

theorem mem_otherwise {last : Option (List Expression)} (among : child ∈ last.getD []) :
    tree .element child ∈ otherwise last := by
  cases last with
  | none => cases among
  | some block => exact List.mem_cons_of_mem _ (List.mem_cons_of_mem _ (mem_blockRest among))

end Segment

theorem Expression.segment_of_child {node child : Expression} (paired : node.Paired)
    (among : child ∈ node.children) : ∃ role, Segment.tree role child ∈ node.segments := by
  cases node with
  | binary operator left right place =>
      rcases List.mem_cons.mp among with rfl | second
      · exact ⟨_, List.mem_cons_self⟩
      · cases List.mem_singleton.mp second
        exact ⟨_, List.mem_cons_of_mem _ (List.mem_cons_of_mem _ List.mem_cons_self)⟩
  | unary operator operand place =>
      cases List.mem_singleton.mp among
      exact ⟨_, List.mem_cons_of_mem _ List.mem_cons_self⟩
  | parenthesized inner place =>
      cases List.mem_singleton.mp among
      exact ⟨_, List.mem_cons_of_mem _ List.mem_cons_self⟩
  | result value place =>
      cases List.mem_singleton.mp among
      exact ⟨_, List.mem_cons_of_mem _ List.mem_cons_self⟩
  | call name values place =>
      exact ⟨_, List.mem_cons_of_mem _ (List.mem_cons_of_mem _ (Segment.mem_arguments among))⟩
  | conditional conditions blocks last place =>
      rcases List.mem_append.mp among with inArms | inLast
      · obtain ⟨role, standing⟩ := Segment.mem_arms paired inArms
        exact ⟨role, List.mem_append_left _ standing⟩
      · exact ⟨_, List.mem_append_right _ (Segment.mem_otherwise inLast)⟩
  | loop condition block place =>
      obtain ⟨role, standing⟩ := Segment.mem_arm among
      exact ⟨role, List.mem_cons_of_mem _ standing⟩
  | _ => cases among

/-! ### The spelling of segments -/

namespace Segment

def spelling (segments : List Segment) : List Token.Kind := segments.flatMap kinds

@[simp] theorem spelling_nil : spelling [] = [] := rfl

@[simp] theorem spelling_token (kind : Token.Kind) (others : List Segment) :
    spelling (token kind :: others) = kind :: spelling others := rfl

@[simp] theorem spelling_tree (role : Role) (part : Expression) (others : List Segment) :
    spelling (tree role part :: others) = part.spelling .tight ++ spelling others := rfl

@[simp] theorem spelling_append (first second : List Segment) :
    spelling (first ++ second) = spelling first ++ spelling second :=
  List.flatMap_append

@[simp] theorem spelling_map_token (kinds : List Token.Kind) :
    spelling (kinds.map token) = kinds := by
  induction kinds with
  | nil => rfl
  | cons kind others ih => rw [List.map_cons, spelling_token, ih]

open Grammar

theorem spelling_elements (elements : List Expression) :
    spelling (elements.map (tree .element)) =
      Spelling.sequence .tight (Expression.spellings .tight elements) := by
  rw [sequence_tight]
  induction elements with
  | nil => rfl
  | cons element others ih =>
      rw [List.map_cons, spelling_tree, ih, Expression.spellings, List.flatten_cons]

@[simp] theorem spelling_blockRest (elements : List Expression) :
    spelling (blockRest elements) =
      Spelling.blockRest .tight (Expression.spellings .tight elements) := by
  rw [blockRest, spelling_append, spelling_elements]
  rfl

@[simp] theorem spelling_arm (condition : Expression) (elements : List Expression) :
    spelling (arm condition elements) =
      Spelling.arm (condition.spelling .tight)
        (Spelling.blockRest .tight (Expression.spellings .tight elements)) := by
  simp [arm, Spelling.arm]

@[simp] theorem spelling_arms (word : Token.Keyword) (conditions : List Expression)
    (blocks : List (List Expression)) :
    spelling (arms word conditions blocks) =
      Spelling.arms word (Expression.spellings .tight conditions)
        (Expression.blockSpellings .tight blocks) := by
  induction conditions generalizing word blocks with
  | nil => rfl
  | cons condition conditions ih =>
      cases blocks with
      | nil => rfl
      | cons block blocks =>
          simp [arms, ih, Expression.spellings, Expression.blockSpellings, Spelling.arms]

theorem spelling_furtherArguments (values : List Expression) :
    spelling (furtherArguments values) =
      (Expression.spellings .tight values).flatMap (.mark .comma :: ·) ++
        [.mark .rightParenthesis] := by
  induction values with
  | nil => rfl
  | cons value others ih => simp [furtherArguments, ih, Expression.spellings]

@[simp] theorem spelling_arguments (values : List Expression) :
    spelling (arguments values) =
      Spelling.arguments (Expression.spellings .tight values) := by
  cases values with
  | nil => rfl
  | cons value others =>
      rw [arguments, spelling_tree, spelling_furtherArguments, Expression.spellings,
        arguments_cons, List.append_assoc]

end Segment

theorem Expression.spelling_segments (tree : Expression) :
    Segment.spelling tree.segments = tree.spelling .tight := by
  cases tree with
  | conditional conditions blocks otherwise place =>
      cases otherwise <;>
        simp [segments, spelling, Segment.otherwise, otherwiseSpelling]
  | _ => simp [segments, spelling]

/-! ### Frames -/

/-- What stands beside a part of something written: the segments in front of it and those
behind it. -/
structure Frame where
  before : List Segment
  role : Role
  behind : List Segment

def Frame.around (frame : Frame) (part : Expression) : List Segment :=
  frame.before ++ .tree frame.role part :: frame.behind

/-- A tree stands below some segments, at any depth. The frames lead from the tree
outwards; the last of them stands in the segments themselves. -/
inductive Below (root : List Segment) : List Frame → Expression → Prop where
  | direct {frame : Frame} {part : Expression} (whole : root = frame.around part) :
      Below root [frame] part
  | deeper {frame : Frame} {outer : List Frame} {node part : Expression}
      (found : Below root outer node) (whole : node.segments = frame.around part) :
      Below root (frame :: outer) part

theorem Below.child {root : List Segment} {frames : List Frame} {node child : Expression}
    (found : Below root frames node) (paired : node.Paired) (among : child ∈ node.children) :
    ∃ frame, Below root (frame :: frames) child := by
  obtain ⟨role, standing⟩ := Expression.segment_of_child paired among
  obtain ⟨before, behind, split⟩ := List.append_of_mem standing
  exact ⟨⟨before, role, behind⟩, .deeper found split⟩

/-- Every node of a program, at any depth, is reached through frames. -/
structure Program.Reached (program : Program) : Prop where
  element : ∀ tree ∈ program.expressions, ∃ frame, Below program.segments [frame] tree
  child : ∀ frames node, Below program.segments frames node →
    ∀ child ∈ node.children, ∃ frame, Below program.segments (frame :: frames) child

theorem Program.reached_of_paired {program : Program}
    (paired : ∀ frames node, Below program.segments frames node → node.Paired) :
    program.Reached where
  element := by
    intro tree among
    obtain ⟨before, behind, split⟩ := List.append_of_mem among
    refine ⟨⟨before.map (.tree .element), .element, behind.map (.tree .element)⟩, .direct ?_⟩
    rw [Program.segments, split, List.map_append]
    rfl
  child := fun frames node found _ among => found.child (paired frames node found) among

namespace Frame

def kindsBefore : List Frame → List Token.Kind
  | [] => []
  | frame :: outer => kindsBefore outer ++ Segment.spelling frame.before

def kindsBehind : List Frame → List Token.Kind
  | [] => []
  | frame :: outer => Segment.spelling frame.behind ++ kindsBehind outer

end Frame

end Shading
