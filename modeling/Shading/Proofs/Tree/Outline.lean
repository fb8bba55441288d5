import Shading.Proofs.Tree.Drawing
import Shading.Proofs.Grammar.Segments

/-!
What a drawn tree is a drawing of.

An outline is a tree of items, each with a label and a place. A program has an outline in
which the named groups of conditionals and loops are items too, and its rows are the
drawing of that outline: an item, and then its parts in order.
-/

namespace Shading

inductive Outline where
  | item (label place : String) (parts : List Outline)

namespace Outline

mutual

def draw : Outline → Drawing
  | item label place parts =>
    .node label place fun ancestors => Drawing.siblings ancestors (drawAll parts)

def drawAll : List Outline → List Drawing
  | [] => []
  | outline :: others => draw outline :: drawAll others

end

theorem drawAll_isEmpty (outlines : List Outline) :
    (drawAll outlines).isEmpty = outlines.isEmpty := by
  cases outlines <;> rfl

def group (name : String) : List Outline → Outline
  | [] => item (name ++ ": (empty)") "" []
  | member :: others => item name "" (member :: others)

def arms : List Outline → List (List Outline) → List Outline
  | condition :: conditions, block :: blocks =>
    group "Condition" [condition] :: group "Then" block :: arms conditions blocks
  | _, _ => []

def otherwise : Option (List Outline) → List Outline
  | none => []
  | some block => [group "Else" block]

end Outline

namespace Expression

def item (located : Bool) (tree : Expression) (parts : List Outline) : Outline :=
  .item tree.label (tree.placeLabel located) parts

mutual

def outline (located : Bool) : Expression → Outline
  | tree@(binary _ left right _) => tree.item located [outline located left, outline located right]
  | tree@(unary _ operand _) => tree.item located [outline located operand]
  | tree@(parenthesized inner _) => tree.item located [outline located inner]
  | tree@(call _ values _) => tree.item located (outlines located values)
  | tree@(result value _) => tree.item located [outline located value]
  | tree@(conditional conditions blocks otherwise _) =>
    tree.item located
      (Outline.arms (outlines located conditions) (blockOutlines located blocks) ++
        Outline.otherwise (otherwiseOutlines located otherwise))
  | tree@(loop condition block _) =>
    tree.item located
      [Outline.group "Condition" [outline located condition],
        Outline.group "Block" (outlines located block)]
  | tree => tree.item located []

def outlines (located : Bool) : List Expression → List Outline
  | [] => []
  | tree :: others => outline located tree :: outlines located others

def blockOutlines (located : Bool) : List (List Expression) → List (List Outline)
  | [] => []
  | block :: others => outlines located block :: blockOutlines located others

def otherwiseOutlines (located : Bool) : Option (List Expression) → Option (List Outline)
  | none => none
  | some block => some (outlines located block)

end

end Expression

def Program.outline (located : Bool) (program : Program) : Outline :=
  .item "Program" "" (Expression.outlines located program.expressions)

/-! ### Nodes at every depth -/

namespace Expression

inductive Everywhere (holds : Expression → Prop) : Expression → Prop where
  | node {tree : Expression} (here : holds tree)
      (below : ∀ child ∈ tree.children, Everywhere holds child) : Everywhere holds tree

namespace Everywhere

variable {holds : Expression → Prop} {tree : Expression}

theorem here (everywhere : tree.Everywhere holds) : holds tree := by
  cases everywhere with
  | node here _ => exact here

theorem inside (everywhere : tree.Everywhere holds) :
    ∀ child ∈ tree.children, child.Everywhere holds := by
  cases everywhere with
  | node _ below => exact below

theorem imp {other : Expression → Prop} (everywhere : tree.Everywhere holds)
    (implied : ∀ node, holds node → other node) : tree.Everywhere other := by
  induction everywhere with
  | node here _ ih => exact .node (implied _ here) ih

end Everywhere

end Expression

def Program.Everywhere (holds : Expression → Prop) (program : Program) : Prop :=
  ∀ tree ∈ program.expressions, tree.Everywhere holds

/-! ### The drawing of an outline -/

namespace Drawing

theorem group_drawAll (name : String) (members : List Outline) :
    group name (Outline.drawAll members) = (Outline.group name members).draw := by
  cases members <;> rfl

theorem arms_isEmpty (conditions : List Outline) (blocks : List (List Outline))
    (last : Option (List Outline)) (paired : blocks.length = conditions.length) :
    (Outline.arms conditions blocks ++ Outline.otherwise last).isEmpty =
      (conditions.isEmpty && !last.isSome) := by
  cases conditions with
  | nil =>
      cases blocks with
      | cons block blocks => cases paired
      | nil => cases last <;> rfl
  | cons condition conditions =>
      cases blocks with
      | nil => cases paired
      | cons block blocks => rfl

theorem arms_siblings (ancestors : List Bool) (conditions : List Outline)
    (blocks : List (List Outline)) (last : Option (List Outline))
    (paired : blocks.length = conditions.length) :
    arms ancestors last.isSome (Outline.drawAll conditions) (blocks.map Outline.drawAll) ++
        otherwiseGroup ancestors (last.map Outline.drawAll) =
      siblings ancestors
        (Outline.drawAll (Outline.arms conditions blocks ++ Outline.otherwise last)) := by
  induction conditions generalizing blocks with
  | nil =>
      cases blocks with
      | cons block blocks => cases paired
      | nil =>
          cases last with
          | none => rfl
          | some block => exact congrFun (congrFun (group_drawAll "Else" block) ancestors) true
  | cons condition conditions ih =>
      cases blocks with
      | nil => cases paired
      | cons block blocks =>
          -- A block is drawn as the last child exactly if no sibling follows it.
          have pairedRest : blocks.length = conditions.length := Nat.succ.inj paired
          have following := ih blocks pairedRest
          have nothing := arms_isEmpty conditions blocks last pairedRest
          show group "Condition" (Outline.drawAll [condition]) ancestors false ++
              group "Then" (Outline.drawAll block) ancestors
                ((Outline.drawAll conditions).isEmpty && !last.isSome) ++
              arms ancestors last.isSome (Outline.drawAll conditions)
                (blocks.map Outline.drawAll) ++
              otherwiseGroup ancestors (last.map Outline.drawAll) =
            siblings ancestors ((Outline.group "Condition" [condition]).draw ::
              (Outline.group "Then" block).draw ::
              Outline.drawAll (Outline.arms conditions blocks ++ Outline.otherwise last))
          rw [siblings_cons, siblings_cons, Outline.drawAll_isEmpty, Outline.drawAll_isEmpty,
            nothing, ← following, group_drawAll, group_drawAll]
          simp only [List.append_assoc]
          rfl

end Drawing

namespace Expression

theorem outline_conditional (located : Bool) (conditions : List Expression)
    (blocks : List (List Expression)) (otherwise : Option (List Expression)) (place : Location) :
    outline located (conditional conditions blocks otherwise place) =
      (conditional conditions blocks otherwise place).item located
        (Outline.arms (outlines located conditions) (blockOutlines located blocks) ++
          Outline.otherwise (otherwiseOutlines located otherwise)) := rfl

theorem outline_loop (located : Bool) (condition : Expression) (block : List Expression)
    (place : Location) :
    outline located (loop condition block place) =
      (loop condition block place).item located
        [Outline.group "Condition" [condition.outline located],
          Outline.group "Block" (outlines located block)] := rfl

theorem draw_item (located : Bool) (tree : Expression) (parts : List Outline) :
    (tree.item located parts).draw =
      .node tree.label (tree.placeLabel located) fun ancestors =>
        Drawing.siblings ancestors (Outline.drawAll parts) := rfl

theorem otherwiseOutlines_isSome (located : Bool) (otherwise : Option (List Expression)) :
    (otherwiseOutlines located otherwise).isSome = otherwise.isSome := by
  cases otherwise <;> rfl

theorem outlines_length (located : Bool) (trees : List Expression) :
    (outlines located trees).length = trees.length := by
  induction trees with
  | nil => rfl
  | cons tree others ih => rw [outlines, List.length_cons, ih, List.length_cons]

theorem blockOutlines_length (located : Bool) (blocks : List (List Expression)) :
    (blockOutlines located blocks).length = blocks.length := by
  induction blocks with
  | nil => rfl
  | cons block others ih => rw [blockOutlines, List.length_cons, ih, List.length_cons]

theorem outlines_paired {located : Bool} {conditions : List Expression}
    {blocks : List (List Expression)} (paired : blocks.length = conditions.length) :
    (blockOutlines located blocks).length = (outlines located conditions).length := by
  rw [blockOutlines_length, outlines_length, paired]

mutual

/-- A tree is drawn as its outline is, if its conditionals are paired. -/
theorem drawing_eq_draw {located : Bool} {tree : Expression} (paired : tree.Everywhere Paired) :
    tree.drawing located = (tree.outline located).draw := by
  have inside := paired.inside
  match tree with
  | .binary operator left right place =>
      obtain ⟨leftPaired, others⟩ := List.forall_mem_cons.mp inside
      rw [drawing, drawing_eq_draw leftPaired,
        drawing_eq_draw (List.forall_mem_singleton.mp others)]
      rfl
  | .unary operator operand place =>
      rw [drawing, drawing_eq_draw (List.forall_mem_singleton.mp inside)]
      rfl
  | .parenthesized inner place =>
      rw [drawing, drawing_eq_draw (List.forall_mem_singleton.mp inside)]
      rfl
  | .result value place =>
      rw [drawing, drawing_eq_draw (List.forall_mem_singleton.mp inside)]
      rfl
  | .call name values place =>
      have valuesPaired : ∀ value ∈ values, value.Everywhere Paired := inside
      rw [drawing, drawings_eq_drawAll valuesPaired]
      rfl
  | .conditional conditions blocks otherwise place =>
      obtain ⟨testsAndBlocks, lastPaired⟩ := List.forall_mem_append.mp inside
      obtain ⟨testsPaired, blocksPaired⟩ := List.forall_mem_append.mp testsAndBlocks
      rw [drawing, drawings_eq_drawAll testsPaired, blockDrawings_eq blocksPaired,
        otherwiseDrawings_eq lastPaired, ← otherwiseOutlines_isSome located otherwise,
        outline_conditional, draw_item]
      congr 1
      funext ancestors
      exact Drawing.arms_siblings ancestors _ _ _ (outlines_paired paired.here)
  | .loop condition block place =>
      obtain ⟨conditionPaired, blockPaired⟩ := List.forall_mem_cons.mp inside
      rw [drawing, drawing_eq_draw conditionPaired, drawings_eq_drawAll blockPaired,
        outline_loop, draw_item]
      congr 1
      funext ancestors
      have condition : Drawing.group "Condition" [(condition.outline located).draw] = _ :=
        Drawing.group_drawAll "Condition" [condition.outline located]
      rw [condition, Drawing.group_drawAll, Outline.drawAll, Outline.drawAll,
        Drawing.siblings_cons, Drawing.siblings_cons]
      simp only [Outline.drawAll, Drawing.siblings, List.append_nil]
      rfl
  | .number _ _ => rfl
  | .truth _ _ => rfl
  | .memberName _ _ => rfl
  | .declaration _ _ _ => rfl
  | .pipeline _ _ _ => rfl
  | .void _ => rfl

theorem drawings_eq_drawAll {located : Bool} {trees : List Expression}
    (paired : ∀ tree ∈ trees, tree.Everywhere Paired) :
    drawings located trees = Outline.drawAll (outlines located trees) := by
  match trees with
  | [] => rfl
  | tree :: others =>
      have first := List.forall_mem_cons.mp paired
      rw [drawings, drawing_eq_draw first.1, drawings_eq_drawAll first.2]
      rfl

theorem blockDrawings_eq {located : Bool} {blocks : List (List Expression)}
    (paired : ∀ tree ∈ blocks.flatten, tree.Everywhere Paired) :
    blockDrawings located blocks = (blockOutlines located blocks).map Outline.drawAll := by
  match blocks with
  | [] => rfl
  | block :: others =>
      obtain ⟨blockPaired, othersPaired⟩ := List.forall_mem_append.mp paired
      rw [blockDrawings, drawings_eq_drawAll blockPaired, blockDrawings_eq othersPaired]
      rfl

theorem otherwiseDrawings_eq {located : Bool} {otherwise : Option (List Expression)}
    (paired : ∀ tree ∈ otherwise.getD [], tree.Everywhere Paired) :
    otherwiseDrawings located otherwise =
      (otherwiseOutlines located otherwise).map Outline.drawAll := by
  match otherwise with
  | none => rfl
  | some block =>
      have blockPaired : ∀ tree ∈ block, tree.Everywhere Paired := paired
      rw [otherwiseDrawings, drawings_eq_drawAll blockPaired]
      rfl

end

end Expression

/-- The rows of a program are its name and then the drawing of what its outline has below
the name. -/
theorem Program.rows_eq_draw {located : Bool} {program : Program}
    (paired : program.Everywhere Expression.Paired) :
    program.rows located =
      ⟨"", "Program", ""⟩ :: Drawing.siblings []
        (Outline.drawAll (Expression.outlines located program.expressions)) := by
  rw [Program.rows, Expression.drawings_eq_drawAll paired]

end Shading
