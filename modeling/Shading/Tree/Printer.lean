import Shading.Expression

/-!
Printing syntax trees as text.

Every node has a row of its own. In front of its label stand guides: for each node that
is open a bar or a blank, then a connector. The printer keeps a stack of the open nodes,
which says of each whether it was the last child of its parent. Conditionals and loops
put their parts into named groups.
-/

namespace Shading

/-! ### Labels -/

namespace Expression

/-- The label of a node: its kind, and what tells it from others of its kind. -/
def label (expression : Expression) : String :=
  match expression with
  | number value _ => expression.kindName ++ " " ++ Number.text value
  | memberName name _ => expression.kindName ++ " \"" ++ name ++ "\""
  | pipeline _ name _ => expression.kindName ++ " \"" ++ name ++ "\""
  | declaration type name _ => expression.kindName ++ " " ++ type.word ++ " " ++ name
  | binary operator _ _ _ => expression.kindName ++ " " ++ operator.text
  | unary operator _ _ => expression.kindName ++ " " ++ operator.text
  | call name arguments _ =>
    expression.kindName ++ " \"" ++ name ++ "\"" ++
      if arguments.isEmpty then " (no arguments)" else ""
  | _ => expression.kindName

def placeLabel (located : Bool) (expression : Expression) : String :=
  if located then " @" ++ expression.location.shown else ""

end Expression

/-! ### Steps of a printer -/

/-- What was printed so far, and the nodes that are open, the outermost first. -/
structure TreePrinter where
  located : Bool
  output : String
  opened : List Bool

abbrev Printing := Bool → TreePrinter → TreePrinter

namespace TreePrinter

def empty (located : Bool) : TreePrinter := ⟨located, "", []⟩

def line (text : String) (printer : TreePrinter) : TreePrinter :=
  { printer with output := printer.output ++ text ++ "\n" }

/-- Below an ancestor that was the last child of its parent nothing remains to be
drawn; below any other a bar leads on. -/
def ancestorGuide (wasLast : Bool) : String :=
  if wasLast then "    " else "│   "

def connector (isLast : Bool) : String :=
  if isLast then "└── " else "├── "

def guides (isLast : Bool) (printer : TreePrinter) : TreePrinter :=
  let drawn := printer.opened.foldl (fun output wasLast => output ++ ancestorGuide wasLast)
    printer.output
  { printer with output := drawn ++ connector isLast }

def push (isLast : Bool) (printer : TreePrinter) : TreePrinter :=
  { printer with opened := printer.opened ++ [isLast] }

def pop (printer : TreePrinter) : TreePrinter :=
  { printer with opened := printer.opened.dropLast }

/-- Items under the node that is open, of which the one at the end is the last child. -/
def children : List Printing → TreePrinter → TreePrinter
  | [], printer => printer
  | first :: others, printer => children others (first others.isEmpty printer)

/-- A node with its row. What is below it is printed while it is open. -/
def node (expression : Expression) (below : TreePrinter → TreePrinter) : Printing :=
  fun isLast printer =>
    let text := expression.label ++ expression.placeLabel printer.located
    (below (((printer.guides isLast).line text).push isLast)).pop

/-- Expressions under a name. A group without any says so, and is never open. -/
def group (name : String) (members : List Printing) : Printing :=
  fun isLast printer =>
    let printer := printer.guides isLast
    if members.isEmpty then
      printer.line (name ++ ": (empty)")
    else
      (children members ((printer.line name).push isLast)).pop

/-- The conditions and blocks of a conditional, pairwise. The shorter list decides
how many pairs are printed; the last condition decides which block is printed as the
last child. -/
def arms (hasOtherwise : Bool) :
    List Printing → List (List Printing) → TreePrinter → TreePrinter
  | condition :: conditions, block :: blocks, printer =>
    let printer := group "Condition" [condition] false printer
    let printer := group "Then" block (conditions.isEmpty && !hasOtherwise) printer
    arms hasOtherwise conditions blocks printer
  | _, _, printer => printer

def otherwiseGroup : Option (List Printing) → TreePrinter → TreePrinter
  | none, printer => printer
  | some block, printer => group "Else" block true printer

end TreePrinter

/-! ### Expressions -/

namespace Expression

mutual

def printing : Expression → Printing
  | expression@(binary _ left right _) =>
    TreePrinter.node expression fun printer => printing right true (printing left false printer)
  | expression@(unary _ operand _) => TreePrinter.node expression (printing operand true)
  | expression@(parenthesized inner _) => TreePrinter.node expression (printing inner true)
  | expression@(result value _) => TreePrinter.node expression (printing value true)
  | expression@(call _ arguments _) =>
    TreePrinter.node expression (TreePrinter.children (printings arguments))
  | expression@(conditional conditions blocks otherwise _) =>
    TreePrinter.node expression fun printer =>
      TreePrinter.otherwiseGroup (otherwisePrintings otherwise)
        (TreePrinter.arms otherwise.isSome (printings conditions) (blockPrintings blocks) printer)
  | expression@(loop condition block _) =>
    TreePrinter.node expression fun printer =>
      TreePrinter.group "Block" (printings block) true
        (TreePrinter.group "Condition" [printing condition] false printer)
  | expression => TreePrinter.node expression id

def printings : List Expression → List Printing
  | [] => []
  | expression :: others => printing expression :: printings others

def blockPrintings : List (List Expression) → List (List Printing)
  | [] => []
  | block :: others => printings block :: blockPrintings others

def otherwisePrintings : Option (List Expression) → Option (List Printing)
  | none => none
  | some block => some (printings block)

end

end Expression

/-! ### Programs -/

namespace TreePrinter

def print (printer : TreePrinter) (program : Program) : TreePrinter :=
  children (Expression.printings program.expressions) (printer.line "Program")

def printTimes (printer : TreePrinter) (program : Program) : Nat → TreePrinter
  | 0 => printer
  | times + 1 => (printer.print program).printTimes program times

end TreePrinter

def Program.tree (located : Bool) (program : Program) : String :=
  ((TreePrinter.empty located).print program).output

end Shading
