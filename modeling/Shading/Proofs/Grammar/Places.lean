import Shading.Expression

/-!
Trees with their places changed.

Moving places changes nothing else of a tree. Two trees are the same up to
places when they become equal with every place moved to the origin.
-/

namespace Shading

namespace Expression

mutual

def relocate (move : Location → Location) : Expression → Expression
  | number value place => number value (move place)
  | truth value place => truth value (move place)
  | memberName name place => memberName name (move place)
  | declaration type name place => declaration type name (move place)
  | pipeline role name place => pipeline role name (move place)
  | binary operator left right place =>
    binary operator (left.relocate move) (right.relocate move) (move place)
  | unary operator operand place => unary operator (operand.relocate move) (move place)
  | parenthesized inner place => parenthesized (inner.relocate move) (move place)
  | call name values place => call name (relocateAll move values) (move place)
  | result value place => result (value.relocate move) (move place)
  | conditional conditions blocks otherwise place =>
    conditional (relocateAll move conditions) (relocateBlocks move blocks)
      (relocateOtherwise move otherwise) (move place)
  | loop condition block place =>
    loop (condition.relocate move) (relocateAll move block) (move place)
  | void place => void (move place)

def relocateAll (move : Location → Location) : List Expression → List Expression
  | [] => []
  | tree :: others => tree.relocate move :: relocateAll move others

def relocateBlocks (move : Location → Location) : List (List Expression) → List (List Expression)
  | [] => []
  | block :: others => relocateAll move block :: relocateBlocks move others

def relocateOtherwise (move : Location → Location) :
    Option (List Expression) → Option (List Expression)
  | none => none
  | some block => some (relocateAll move block)

end

def unplaced (tree : Expression) : Expression := tree.relocate fun _ => .origin

theorem relocateAll_eq_map (move : Location → Location) (trees : List Expression) :
    relocateAll move trees = trees.map (relocate move) := by
  induction trees with
  | nil => rfl
  | cons tree others ih => rw [relocateAll, ih, List.map_cons]

theorem relocateBlocks_eq_map (move : Location → Location) (blocks : List (List Expression)) :
    relocateBlocks move blocks = blocks.map (List.map (relocate move)) := by
  induction blocks with
  | nil => rfl
  | cons block others ih => rw [relocateBlocks, ih, relocateAll_eq_map, List.map_cons]

theorem relocateOtherwise_eq_map (move : Location → Location)
    (otherwise : Option (List Expression)) :
    relocateOtherwise move otherwise = otherwise.map (List.map (relocate move)) := by
  cases otherwise with
  | none => rfl
  | some block => rw [relocateOtherwise, relocateAll_eq_map, Option.map_some]

theorem relocate_call (move : Location → Location) (name : String) (values : List Expression)
    (place : Location) :
    (call name values place).relocate move =
      call name (values.map (relocate move)) (move place) := by
  rw [relocate, relocateAll_eq_map]

theorem relocate_loop (move : Location → Location) (condition : Expression)
    (block : List Expression) (place : Location) :
    (loop condition block place).relocate move =
      loop (condition.relocate move) (block.map (relocate move)) (move place) := by
  rw [relocate, relocateAll_eq_map]

theorem relocate_conditional (move : Location → Location) (conditions : List Expression)
    (blocks : List (List Expression)) (otherwise : Option (List Expression))
    (place : Location) :
    (conditional conditions blocks otherwise place).relocate move =
      conditional (conditions.map (relocate move)) (blocks.map (List.map (relocate move)))
        (otherwise.map (List.map (relocate move))) (move place) := by
  rw [relocate, relocateAll_eq_map, relocateBlocks_eq_map, relocateOtherwise_eq_map]

theorem isVoid_relocate (move : Location → Location) (tree : Expression) :
    (tree.relocate move).isVoid = tree.isVoid := by
  cases tree <;> rfl

/-! ### Nodes at the origin -/

@[simp] theorem unplaced_binary (operator : Operator) (left right : Expression)
    (place : Location) :
    (binary operator left right place).unplaced =
      binary operator left.unplaced right.unplaced .origin := rfl

@[simp] theorem unplaced_unary (operator : Operator) (operand : Expression) (place : Location) :
    (unary operator operand place).unplaced = unary operator operand.unplaced .origin := rfl

@[simp] theorem unplaced_parenthesized (inner : Expression) (place : Location) :
    (parenthesized inner place).unplaced = parenthesized inner.unplaced .origin := rfl

@[simp] theorem unplaced_result (value : Expression) (place : Location) :
    (result value place).unplaced = result value.unplaced .origin := rfl

@[simp] theorem unplaced_call (name : String) (values : List Expression) (place : Location) :
    (call name values place).unplaced = call name (values.map unplaced) .origin :=
  relocate_call _ name values place

@[simp] theorem unplaced_loop (condition : Expression) (block : List Expression)
    (place : Location) :
    (loop condition block place).unplaced =
      loop condition.unplaced (block.map unplaced) .origin :=
  relocate_loop _ condition block place

@[simp] theorem unplaced_conditional (conditions : List Expression)
    (blocks : List (List Expression)) (otherwise : Option (List Expression))
    (place : Location) :
    (conditional conditions blocks otherwise place).unplaced =
      conditional (conditions.map unplaced) (blocks.map (List.map unplaced))
        (otherwise.map (List.map unplaced)) .origin :=
  relocate_conditional _ conditions blocks otherwise place

theorem isVoid_of_unplaced {copy tree : Expression} (same : copy.unplaced = tree.unplaced) :
    copy.isVoid = tree.isVoid := by
  have kept : ∀ tree : Expression, tree.unplaced.isVoid = tree.isVoid := isVoid_relocate _
  rw [← kept copy, same, kept tree]

end Expression

def Program.relocate (move : Location → Location) (program : Program) : Program :=
  ⟨program.expressions.map (Expression.relocate move)⟩

def Program.unplaced (program : Program) : Program :=
  ⟨program.expressions.map Expression.unplaced⟩

end Shading
