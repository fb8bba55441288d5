import Mathlib.Data.List.Forall2
import Shading.Tree.Printer

/-!
The rows of a printed tree.

A drawing is what an item looks like, given for each ancestor whether it was the last child.
It knows nothing of a printer. A printer writes the rows of the drawing that belongs to its
stack, and it leaves that stack as it found it, so trees can be printed one behind the other.
-/

namespace Shading

/-! ### Rows -/

/-- One row of a drawn tree: guides, a label, and a place where places are shown. -/
structure TreeRow where
  guides : String
  label : String
  place : String
deriving DecidableEq, Repr

namespace TreeRow

def text (row : TreeRow) : String := row.guides ++ row.label ++ row.place

def guidesOf (ancestors : List Bool) (isLast : Bool) : String :=
  String.join (ancestors.map TreePrinter.ancestorGuide) ++ TreePrinter.connector isLast

def lines (rows : List TreeRow) : String :=
  String.join (rows.map fun row => row.text ++ "\n")

theorem lines_append (first second : List TreeRow) :
    lines (first ++ second) = lines first ++ lines second := by
  unfold lines
  rw [List.map_append, String.join_append]

end TreeRow

/-! ### Drawings -/

/-- What is drawn for an item, given for each ancestor whether it was the last
child, and whether the item is one. -/
abbrev Drawing := List Bool → Bool → List TreeRow

namespace Drawing

def siblings (ancestors : List Bool) : List Drawing → List TreeRow
  | [] => []
  | [only] => only ancestors true
  | first :: second :: others => first ancestors false ++ siblings ancestors (second :: others)

theorem siblings_cons (ancestors : List Bool) (first : Drawing) (others : List Drawing) :
    siblings ancestors (first :: others) =
      first ancestors others.isEmpty ++ siblings ancestors others := by
  cases others with
  | nil => exact (List.append_nil _).symm
  | cons second others => rfl

def node (label place : String) (children : List Bool → List TreeRow) : Drawing :=
  fun ancestors isLast =>
    ⟨TreeRow.guidesOf ancestors isLast, label, place⟩ :: children (ancestors ++ [isLast])

def group (name : String) (members : List Drawing) : Drawing :=
  if members.isEmpty then
    node (name ++ ": (empty)") "" fun _ => []
  else
    node name "" fun ancestors => siblings ancestors members

/-- The conditions and blocks of a conditional, pairwise. The shorter list decides
how many pairs are drawn; the last condition decides which block is drawn as the
last child. -/
def arms (ancestors : List Bool) (hasOtherwise : Bool) :
    List Drawing → List (List Drawing) → List TreeRow
  | condition :: conditions, block :: blocks =>
    group "Condition" [condition] ancestors false ++
      group "Then" block ancestors (conditions.isEmpty && !hasOtherwise) ++
      arms ancestors hasOtherwise conditions blocks
  | _, _ => []

def otherwiseGroup (ancestors : List Bool) : Option (List Drawing) → List TreeRow
  | none => []
  | some block => group "Else" block ancestors true

end Drawing

namespace Expression

mutual

def drawing (located : Bool) : Expression → Drawing
  | expression@(binary _ left right _) =>
    .node expression.label (expression.placeLabel located) fun ancestors =>
      Drawing.siblings ancestors [drawing located left, drawing located right]
  | expression@(unary _ operand _) =>
    .node expression.label (expression.placeLabel located) fun ancestors =>
      Drawing.siblings ancestors [drawing located operand]
  | expression@(parenthesized inner _) =>
    .node expression.label (expression.placeLabel located) fun ancestors =>
      Drawing.siblings ancestors [drawing located inner]
  | expression@(result value _) =>
    .node expression.label (expression.placeLabel located) fun ancestors =>
      Drawing.siblings ancestors [drawing located value]
  | expression@(call _ arguments _) =>
    .node expression.label (expression.placeLabel located) fun ancestors =>
      Drawing.siblings ancestors (drawings located arguments)
  | expression@(conditional conditions blocks otherwise _) =>
    .node expression.label (expression.placeLabel located) fun ancestors =>
      Drawing.arms ancestors otherwise.isSome (drawings located conditions)
          (blockDrawings located blocks) ++
        Drawing.otherwiseGroup ancestors (otherwiseDrawings located otherwise)
  | expression@(loop condition block _) =>
    .node expression.label (expression.placeLabel located) fun ancestors =>
      Drawing.group "Condition" [drawing located condition] ancestors false ++
        Drawing.group "Block" (drawings located block) ancestors true
  | expression => .node expression.label (expression.placeLabel located) fun _ => []

def drawings (located : Bool) : List Expression → List Drawing
  | [] => []
  | expression :: others => drawing located expression :: drawings located others

def blockDrawings (located : Bool) : List (List Expression) → List (List Drawing)
  | [] => []
  | block :: others => drawings located block :: blockDrawings located others

def otherwiseDrawings (located : Bool) : Option (List Expression) → Option (List Drawing)
  | none => none
  | some block => some (drawings located block)

end

end Expression

def Program.rows (located : Bool) (program : Program) : List TreeRow :=
  ⟨"", "Program", ""⟩ :: Drawing.siblings [] (Expression.drawings located program.expressions)

/-! ### What a printer writes -/

namespace TreePrinter

variable {located : Bool} {printer : TreePrinter} {rows : List TreeRow}

def written (printer : TreePrinter) (rows : List TreeRow) : TreePrinter :=
  { printer with output := printer.output ++ TreeRow.lines rows }

theorem written_nil (printer : TreePrinter) : printer.written [] = printer := by
  obtain ⟨located, output, opened⟩ := printer
  exact congrArg (TreePrinter.mk located · opened) String.append_empty

theorem written_append (printer : TreePrinter) (first second : List TreeRow) :
    printer.written (first ++ second) = (printer.written first).written second := by
  unfold written
  rw [TreeRow.lines_append, String.append_assoc]

theorem guides_line (printer : TreePrinter) (isLast : Bool) (label place : String) :
    (printer.guides isLast).line (label ++ place) =
      printer.written [⟨TreeRow.guidesOf printer.opened isLast, label, place⟩] := by
  obtain ⟨located, output, opened⟩ := printer
  have bars : opened.foldl (fun output wasLast => output ++ ancestorGuide wasLast) output =
      output ++ String.join (opened.map ancestorGuide) := by
    induction opened generalizing output with
    | nil => exact String.append_empty.symm
    | cons wasLast opened ih =>
        rw [List.foldl_cons, ih, List.map_cons, String.join_cons, String.append_assoc]
  unfold guides line written TreeRow.lines TreeRow.text TreeRow.guidesOf
  dsimp only
  rw [bars, List.map_singleton, String.join_cons, String.join_nil, String.append_empty]
  simp only [String.append_assoc]

theorem guides_name (printer : TreePrinter) (isLast : Bool) (name : String) :
    (printer.guides isLast).line name =
      printer.written [⟨TreeRow.guidesOf printer.opened isLast, name, ""⟩] := by
  have row := printer.guides_line isLast name ""
  rwa [String.append_empty] at row

theorem pop_written_push (printer : TreePrinter) (isLast : Bool) (rows : List TreeRow) :
    ((printer.push isLast).written rows).pop = printer.written rows := by
  unfold push pop written
  dsimp only
  rw [List.dropLast_concat]

/-- A step of a printer writes rows that depend on its stack, which it leaves as it is. -/
def Writes (located : Bool) (step : TreePrinter → TreePrinter)
    (rows : List Bool → List TreeRow) : Prop :=
  ∀ printer : TreePrinter, printer.located = located →
    step printer = printer.written (rows printer.opened)

/-- Printing an item writes its drawing, be it a last child or not. -/
def Draws (located : Bool) (printing : Printing) (drawing : Drawing) : Prop :=
  ∀ isLast, Writes located (printing isLast) fun ancestors => drawing ancestors isLast

theorem writes_nothing : Writes located id fun _ => [] :=
  fun printer _ => printer.written_nil.symm

theorem Writes.andThen {first second : TreePrinter → TreePrinter}
    {rows others : List Bool → List TreeRow} (begun : Writes located first rows)
    (following : Writes located second others) :
    Writes located (fun printer => second (first printer))
      fun ancestors => rows ancestors ++ others ancestors := by
  intro printer shown
  dsimp only
  rw [begun printer shown, following (printer.written _) shown, written_append]
  rfl

theorem children_writes {printings : List Printing} {drawings : List Drawing}
    (draw : List.Forall₂ (Draws located) printings drawings) :
    Writes located (children printings) fun ancestors => Drawing.siblings ancestors drawings := by
  induction draw with
  | nil => exact writes_nothing
  | @cons printing drawing printings drawings first others ih =>
      -- A printing and its drawing have to agree on which child is the last one.
      have last : printings.isEmpty = drawings.isEmpty := by cases others <;> rfl
      intro printer shown
      have rows := ((first printings.isEmpty).andThen ih) printer shown
      dsimp only at rows ⊢
      rw [Drawing.siblings_cons, ← last, ← rows]
      rfl

theorem node_draws {expression : Expression} {below : TreePrinter → TreePrinter}
    {rows : List Bool → List TreeRow} (inside : Writes located below rows) :
    Draws located (node expression below)
      (.node expression.label (expression.placeLabel located) rows) := by
  intro isLast printer shown
  have opened := inside (push isLast (printer.written
    [⟨TreeRow.guidesOf printer.opened isLast, expression.label, expression.placeLabel located⟩]))
    shown
  unfold node
  dsimp only
  rw [shown, guides_line, opened, pop_written_push, ← written_append]
  rfl

theorem group_draws (name : String) {printings : List Printing} {drawings : List Drawing}
    (draw : List.Forall₂ (Draws located) printings drawings) :
    Draws located (group name printings) (.group name drawings) := by
  intro isLast printer shown
  cases draw with
  | nil => exact printer.guides_name isLast (name ++ ": (empty)")
  | cons first others =>
      have opened := children_writes (.cons first others) (push isLast (printer.written
        [⟨TreeRow.guidesOf printer.opened isLast, name, ""⟩])) shown
      unfold group
      dsimp only
      rw [List.isEmpty_cons, if_neg Bool.false_ne_true, guides_name, opened, pop_written_push,
        ← written_append]
      rfl

theorem arms_writes {conditions : List Printing} {blocks : List (List Printing)}
    {tests : List Drawing} {bodies : List (List Drawing)} (hasOtherwise : Bool)
    (drawTests : List.Forall₂ (Draws located) conditions tests)
    (drawBlocks : List.Forall₂ (List.Forall₂ (Draws located)) blocks bodies) :
    Writes located (arms hasOtherwise conditions blocks)
      fun ancestors => Drawing.arms ancestors hasOtherwise tests bodies := by
  induction drawTests generalizing blocks bodies with
  | nil => exact writes_nothing
  | @cons condition test conditions tests first others ih =>
      cases drawBlocks with
      | nil => exact writes_nothing
      | cons block blocks =>
          have last : conditions.isEmpty = tests.isEmpty := by cases others <;> rfl
          intro printer shown
          have rows := (((group_draws "Condition" (.cons first .nil) false).andThen
            (group_draws "Then" block (conditions.isEmpty && !hasOtherwise))).andThen
              (ih blocks)) printer shown
          dsimp only at rows ⊢
          rw [Drawing.arms, ← last, ← rows]
          rfl

end TreePrinter

namespace Expression

open TreePrinter

mutual

/-- Printing a tree writes its drawing. -/
theorem printing_draws (located : Bool) (tree : Expression) :
    Draws located tree.printing (tree.drawing located) := by
  match tree with
  | .binary operator left right place =>
      have below := (printing_draws located left false).andThen
        (printing_draws located right true)
      exact node_draws below
  | .unary operator operand place => exact node_draws (printing_draws located operand true)
  | .parenthesized inner place => exact node_draws (printing_draws located inner true)
  | .result value place => exact node_draws (printing_draws located value true)
  | .call name values place => exact node_draws (children_writes (printings_draw located values))
  | .conditional conditions blocks otherwise place =>
      have below := arms_writes otherwise.isSome (printings_draw located conditions)
        (blockPrintings_draw located blocks)
      match otherwise with
      | none => exact node_draws (below.andThen writes_nothing)
      | some block =>
          exact node_draws (below.andThen (group_draws "Else" (printings_draw located block) true))
  | .loop condition block place =>
      have below := (group_draws "Condition"
        (.cons (printing_draws located condition) .nil) false).andThen
          (group_draws "Block" (printings_draw located block) true)
      exact node_draws below
  | .number _ _ => exact node_draws writes_nothing
  | .truth _ _ => exact node_draws writes_nothing
  | .memberName _ _ => exact node_draws writes_nothing
  | .declaration _ _ _ => exact node_draws writes_nothing
  | .pipeline _ _ _ => exact node_draws writes_nothing
  | .void _ => exact node_draws writes_nothing

theorem printings_draw (located : Bool) (trees : List Expression) :
    List.Forall₂ (Draws located) (printings trees) (drawings located trees) := by
  match trees with
  | [] => exact .nil
  | tree :: others => exact .cons (printing_draws located tree) (printings_draw located others)

theorem blockPrintings_draw (located : Bool) (blocks : List (List Expression)) :
    List.Forall₂ (List.Forall₂ (Draws located)) (blockPrintings blocks)
      (blockDrawings located blocks) := by
  match blocks with
  | [] => exact .nil
  | block :: others =>
      exact .cons (printings_draw located block) (blockPrintings_draw located others)

end

end Expression

namespace TreePrinter

theorem print_eq (printer : TreePrinter) (program : Program) :
    printer.print program = printer.written (⟨"", "Program", ""⟩ ::
      Drawing.siblings printer.opened
        (Expression.drawings printer.located program.expressions)) := by
  have name : printer.line "Program" = printer.written [⟨"", "Program", ""⟩] := by
    unfold line written
    rw [String.append_assoc]
    rfl
  have below := children_writes (Expression.printings_draw printer.located program.expressions)
  rw [print, name, below (printer.written _) rfl, ← written_append]
  rfl

end TreePrinter

theorem Program.tree_eq_lines (located : Bool) (program : Program) :
    program.tree located = TreeRow.lines (program.rows located) := by
  rw [Program.tree, TreePrinter.print_eq]
  exact String.empty_append

end Shading
