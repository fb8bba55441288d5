import Mathlib.Data.List.Forall2
import Shading.Proofs.Tree.Determination
import Shading.Viewer.Session

/-!
Where the tree pane splits rows.

The pane gets a printed tree as lines of text and looks for the parts of each line again:
guides reach up to the first character that is no guide, and the place begins at the last
blank before an at sign. Names are words, and words may be made of guides, but a label begins
with the name of a form or of a group, and no label has an at sign. So the pane finds the
parts that the printer joined.
-/

namespace Shading

/-! ### What rows stand for -/

inductive Grouping where
  | condition
  | consequence
  | alternative
  | block
deriving DecidableEq

def Grouping.name : Grouping → String
  | condition => "Condition"
  | consequence => "Then"
  | alternative => "Else"
  | block => "Block"

def Grouping.label (grouping : Grouping) (empty : Bool) : String :=
  if empty then grouping.name ++ ": (empty)" else grouping.name

inductive Subject where
  | program
  | group (grouping : Grouping) (empty : Bool)
  | node (tree : Expression)

namespace Subject

def under (grouping : Grouping) (members : List (List Subject)) : List Subject :=
  .group grouping members.isEmpty :: members.flatten

def arms : List (List Subject) → List (List (List Subject)) → List Subject
  | condition :: conditions, block :: blocks =>
    under .condition [condition] ++ under .consequence block ++ arms conditions blocks
  | _, _ => []

def otherwise : Option (List (List Subject)) → List Subject
  | none => []
  | some block => under .alternative block

end Subject

namespace Expression

mutual

/-- A tree, its groups and the trees below it, in preorder. -/
def subjects : Expression → List Subject
  | tree@(binary _ left right _) => .node tree :: [subjects left, subjects right].flatten
  | tree@(unary _ operand _) => .node tree :: [subjects operand].flatten
  | tree@(parenthesized inner _) => .node tree :: [subjects inner].flatten
  | tree@(result value _) => .node tree :: [subjects value].flatten
  | tree@(call _ values _) => .node tree :: (subjectsOfAll values).flatten
  | tree@(conditional conditions blocks otherwise _) =>
    .node tree :: (Subject.arms (subjectsOfAll conditions) (subjectsOfBlocks blocks) ++
      Subject.otherwise (subjectsOfOtherwise otherwise))
  | tree@(loop condition block _) =>
    .node tree :: (Subject.under .condition [subjects condition] ++
      Subject.under .block (subjectsOfAll block))
  | tree => [.node tree]

def subjectsOfAll : List Expression → List (List Subject)
  | [] => []
  | tree :: others => subjects tree :: subjectsOfAll others

def subjectsOfBlocks : List (List Expression) → List (List (List Subject))
  | [] => []
  | block :: others => subjectsOfAll block :: subjectsOfBlocks others

def subjectsOfOtherwise : Option (List Expression) → Option (List (List Subject))
  | none => none
  | some block => some (subjectsOfAll block)

end

end Expression

def Program.subjects (program : Program) : List Subject :=
  .program :: (Expression.subjectsOfAll program.expressions).flatten

/-- A row as it is printed for its subject: the guides of the depth where it stands, and a
place exactly behind the label of a node. -/
inductive Subject.Heads : Subject → TreeRow → Prop where
  | program : Heads .program ⟨"", "Program", ""⟩
  | group (grouping : Grouping) (empty : Bool) (ancestors : List Bool) (isLast : Bool) :
      Heads (.group grouping empty)
        ⟨TreeRow.guidesOf ancestors isLast, grouping.label empty, ""⟩
  | node {tree : Expression} (worded : tree.Worded) (ancestors : List Bool) (isLast : Bool) :
      Heads (.node tree)
        ⟨TreeRow.guidesOf ancestors isLast, tree.label, " @" ++ tree.location.shown⟩

namespace Subject

/-! ### Every row has its subject -/

def Drawn (subjects : List Subject) (drawing : Drawing) : Prop :=
  ∀ ancestors isLast, List.Forall₂ Heads subjects (drawing ancestors isLast)

variable {members : List (List Subject)} {drawings : List Drawing}

theorem drawn_siblings (drawn : List.Forall₂ Drawn members drawings) (ancestors : List Bool) :
    List.Forall₂ Heads members.flatten (Drawing.siblings ancestors drawings) := by
  induction drawn with
  | nil => exact .nil
  | cons first _ others =>
      rw [Drawing.siblings_cons, List.flatten_cons]
      exact List.rel_append (first ancestors _) others

theorem drawn_group (grouping : Grouping) (drawn : List.Forall₂ Drawn members drawings) :
    Drawn (under grouping members) (Drawing.group grouping.name drawings) := by
  intro ancestors isLast
  cases drawn with
  | nil => exact .cons (.group grouping true ancestors isLast) .nil
  | cons first others =>
      exact .cons (.group grouping false ancestors isLast)
        (drawn_siblings (.cons first others) (ancestors ++ [isLast]))

theorem drawn_arms {blockMembers : List (List (List Subject))} {blocks : List (List Drawing)}
    (ancestors : List Bool) (hasOtherwise : Bool) (tests : List.Forall₂ Drawn members drawings)
    (bodies : List.Forall₂ (List.Forall₂ Drawn) blockMembers blocks) :
    List.Forall₂ Heads (arms members blockMembers)
      (Drawing.arms ancestors hasOtherwise drawings blocks) := by
  induction tests generalizing blockMembers blocks with
  | nil => exact .nil
  | @cons _ _ _ conditions test _ ih =>
      cases bodies with
      | nil => exact .nil
      | cons body bodies =>
          have condition := drawn_group .condition (.cons test .nil) ancestors false
          have block := drawn_group .consequence body ancestors
            (conditions.isEmpty && !hasOtherwise)
          exact List.rel_append (List.rel_append condition block) (ih bodies)

theorem drawn_otherwise {last : Option (List (List Subject))}
    {lastDrawings : Option (List Drawing)} (ancestors : List Bool)
    (drawn : Option.Rel (List.Forall₂ Drawn) last lastDrawings) :
    List.Forall₂ Heads (otherwise last) (Drawing.otherwiseGroup ancestors lastDrawings) := by
  cases drawn with
  | none => exact .nil
  | some block => exact drawn_group .alternative block ancestors true

theorem drawn_node {tree : Expression} {below : List Subject} {children : List Bool → List TreeRow}
    (worded : tree.Worded) (drawn : ∀ ancestors, List.Forall₂ Heads below (children ancestors)) :
    Drawn (.node tree :: below) (.node tree.label (tree.placeLabel true) children) := by
  intro ancestors isLast
  exact .cons (.node worded ancestors isLast) (drawn (ancestors ++ [isLast]))

end Subject

namespace Expression

open Subject

mutual

theorem drawn_drawing {tree : Expression} (worded : tree.Everywhere Worded) :
    Drawn tree.subjects (tree.drawing true) := by
  have inside := worded.inside
  have here := worded.here
  match tree with
  | .binary operator left right place =>
      obtain ⟨leftWorded, others⟩ := List.forall_mem_cons.mp inside
      have rightWorded := List.forall_mem_singleton.mp others
      apply drawn_node here
      exact drawn_siblings
        (.cons (drawn_drawing leftWorded) (.cons (drawn_drawing rightWorded) .nil))
  | .unary operator operand place =>
      apply drawn_node here
      exact drawn_siblings (.cons (drawn_drawing (List.forall_mem_singleton.mp inside)) .nil)
  | .parenthesized inner place =>
      apply drawn_node here
      exact drawn_siblings (.cons (drawn_drawing (List.forall_mem_singleton.mp inside)) .nil)
  | .result value place =>
      apply drawn_node here
      exact drawn_siblings (.cons (drawn_drawing (List.forall_mem_singleton.mp inside)) .nil)
  | .call name values place =>
      have valuesWorded : ∀ value ∈ values, value.Everywhere Worded := inside
      exact drawn_node here (drawn_siblings (drawn_drawings valuesWorded))
  | .conditional conditions blocks last place =>
      obtain ⟨arms, lastWorded⟩ := List.forall_mem_append.mp inside
      obtain ⟨testsWorded, blocksWorded⟩ := List.forall_mem_append.mp arms
      apply drawn_node here
      intro ancestors
      exact List.rel_append
        (drawn_arms ancestors _ (drawn_drawings testsWorded) (drawn_blockDrawings blocksWorded))
        (drawn_otherwise ancestors (drawn_otherwiseDrawings lastWorded))
  | .loop condition block place =>
      obtain ⟨conditionWorded, blockWorded⟩ := List.forall_mem_cons.mp inside
      apply drawn_node here
      intro ancestors
      exact List.rel_append
        (drawn_group .condition (.cons (drawn_drawing conditionWorded) .nil) ancestors false)
        (drawn_group .block (drawn_drawings blockWorded) ancestors true)
  | .number _ _ => exact drawn_node here fun _ => .nil
  | .truth _ _ => exact drawn_node here fun _ => .nil
  | .memberName _ _ => exact drawn_node here fun _ => .nil
  | .declaration _ _ _ => exact drawn_node here fun _ => .nil
  | .pipeline _ _ _ => exact drawn_node here fun _ => .nil
  | .void _ => exact drawn_node here fun _ => .nil

theorem drawn_drawings {trees : List Expression}
    (worded : ∀ tree ∈ trees, tree.Everywhere Worded) :
    List.Forall₂ Drawn (subjectsOfAll trees) (drawings true trees) := by
  match trees with
  | [] => exact .nil
  | tree :: others =>
      obtain ⟨first, following⟩ := List.forall_mem_cons.mp worded
      exact .cons (drawn_drawing first) (drawn_drawings following)

theorem drawn_blockDrawings {blocks : List (List Expression)}
    (worded : ∀ tree ∈ blocks.flatten, tree.Everywhere Worded) :
    List.Forall₂ (List.Forall₂ Drawn) (subjectsOfBlocks blocks) (blockDrawings true blocks) := by
  match blocks with
  | [] => exact .nil
  | block :: others =>
      obtain ⟨blockWorded, othersWorded⟩ := List.forall_mem_append.mp worded
      exact .cons (drawn_drawings blockWorded) (drawn_blockDrawings othersWorded)

theorem drawn_otherwiseDrawings {last : Option (List Expression)}
    (worded : ∀ tree ∈ last.getD [], tree.Everywhere Worded) :
    Option.Rel (List.Forall₂ Drawn) (subjectsOfOtherwise last) (otherwiseDrawings true last) := by
  match last with
  | none => exact .none
  | some block =>
      have blockWorded : ∀ tree ∈ block, tree.Everywhere Worded := worded
      exact .some (drawn_drawings blockWorded)

end

end Expression

namespace Program

variable {program : Program}

theorem rows_heads (worded : program.Everywhere Expression.Worded) :
    List.Forall₂ Subject.Heads program.subjects (program.rows true) :=
  .cons .program (Subject.drawn_siblings (Expression.drawn_drawings worded) [])

theorem row_heads (worded : program.Everywhere Expression.Worded) :
    ∀ row ∈ program.rows true, ∃ subject : Subject, subject.Heads row := by
  have heads := rows_heads worded
  generalize program.subjects = subjects, program.rows true = rows at heads ⊢
  induction heads with
  | nil => nofun
  | cons first _ ih => exact List.forall_mem_cons.mpr ⟨⟨_, first⟩, ih⟩

end Program

/-! ### Parts of a row -/

theorem Grouping.label_clean (grouping : Grouping) (empty : Bool) :
    CleanLabel (grouping.label empty).toList := by
  cases grouping <;> cases empty <;> exact ⟨⟨_, _, rfl, rfl⟩, by decide⟩

namespace TreeRow

def paneLine (row : TreeRow) : StyledLine :=
  .ofSpans
    [⟨row.guides.toList, .colored Theme.comment⟩, ⟨row.label.toList, .colored Theme.foreground⟩,
     ⟨row.place.toList, .colored Theme.comment⟩]

theorem text_parts (row : TreeRow) :
    row.text.toList = row.guides.toList ++ (row.label.toList ++ row.place.toList) := by
  rw [text, String.toList_append, String.toList_append, List.append_assoc]

end TreeRow

namespace Subject

variable {subject : Subject} {row : TreeRow}

/-- The parts that the pane finds in a row are those that it was joined from. -/
theorem Heads.parts (heads : subject.Heads row) :
    TreePane.parts row.text.toList = (row.guides.toList, row.label.toList, row.place.toList) := by
  rw [row.text_parts]
  cases heads with
  | program => rfl
  | group grouping empty ancestors isLast =>
      exact TreePane.parts_append (TreeRow.guidesOf_guiding ancestors isLast).2
        (grouping.label_clean empty) (.inl rfl)
  | @node tree worded ancestors isLast =>
      exact TreePane.parts_append (TreeRow.guidesOf_guiding ancestors isLast).2
        (Expression.label_clean worded) (tree.placeLabel_clean true)

theorem Heads.noFeed (heads : subject.Heads row) : '\n' ∉ row.text.toList := by
  cases heads with
  | program => decide
  | group grouping empty ancestors isLast =>
      exact TreeRow.Clean.noFeed ⟨⟨_, _, rfl⟩, grouping.label_clean empty, .inl rfl⟩
  | @node tree worded ancestors isLast =>
      exact TreeRow.Clean.noFeed
        ⟨⟨_, _, rfl⟩, Expression.label_clean worded, tree.placeLabel_clean true⟩

theorem Heads.noReturn (heads : subject.Heads row) : row.text.toList.getLast? ≠ some '\r' := by
  cases heads with
  | program => decide
  | group grouping empty ancestors isLast =>
      rw [TreeRow.text_parts]
      cases grouping <;> cases empty <;> simp [Grouping.label, Grouping.name]
  | @node tree worded ancestors isLast =>
      have written : TreeRow.text
          ⟨TreeRow.guidesOf ancestors isLast, tree.label, " @" ++ tree.location.shown⟩ =
            TreeRow.guidesOf ancestors isLast ++ tree.label ++ " @" ++
              toString tree.location.shownLine ++ ":" ++ toString tree.location.shownColumn := by
        simp only [TreeRow.text, Location.shown, String.append_assoc]
      have nonempty : Nat.toDigits 10 tree.location.shownColumn ≠ [] := Nat.toDigits_ne_nil
      have digits : (toString tree.location.shownColumn).toList =
          Nat.toDigits 10 tree.location.shownColumn := by
        rw [Nat.toString_eq_ofList_toDigits, String.toList_ofList]
      rw [written, String.toList_append, digits, List.getLast?_append_of_ne_nil _ nonempty]
      intro ends
      cases Nat.isDigit_of_mem_toDigits (by decide) (by decide) (List.mem_of_getLast? ends)

end Subject

/-! ### Lines of a printed tree -/

namespace Text

theorem linesFrom_ended (line behind rest : List Char) (noFeed : '\n' ∉ behind) :
    linesFrom line (behind ++ '\n' :: rest) = endedLine (line ++ behind) :: linesFrom [] rest := by
  induction behind generalizing line with
  | nil =>
      rw [List.nil_append, List.append_nil, linesFrom, if_pos rfl]
  | cons character others ih =>
      have visible : character ≠ '\n' := fun same => noFeed (same ▸ List.mem_cons_self)
      rw [List.cons_append, linesFrom, if_neg visible,
        ih _ fun among => noFeed (List.mem_cons_of_mem _ among), List.append_assoc]
      rfl

end Text

theorem TreeRow.lines_lines {rows : List TreeRow}
    (heads : ∀ row ∈ rows, ∃ subject : Subject, subject.Heads row) :
    Text.lines (TreeRow.lines rows) = rows.map fun row => row.text.toList := by
  unfold Text.lines TreeRow.lines
  rw [String.toList_join, List.flatMap_map]
  induction rows with
  | nil => rfl
  | cons row others ih =>
      obtain ⟨⟨subject, first⟩, following⟩ := List.forall_mem_cons.mp heads
      have ended : Text.endedLine row.text.toList = row.text.toList := if_neg first.noReturn
      rw [List.flatMap_cons, String.toList_append, List.append_assoc]
      exact (Text.linesFrom_ended [] _ _ first.noFeed).trans
        (congrArg₂ List.cons ended (ih following))

theorem Program.tree_lines {program : Program} (worded : program.Everywhere Expression.Worded) :
    Text.lines (program.tree true) = (program.rows true).map fun row => row.text.toList := by
  rw [Program.tree_eq_lines]
  exact TreeRow.lines_lines (Program.row_heads worded)

theorem Session.rowsOf_eq {program : Program} (worded : program.Everywhere Expression.Worded) :
    Session.rowsOf (.ok program) = (program.rows true).map TreeRow.text := by
  unfold Session.rowsOf
  dsimp only
  rw [Program.tree_lines worded, List.map_map]
  exact List.map_congr_left fun row _ => String.ofList_toList

/-- The lines of a printed tree are its rows, and stand for what is in the program, in
preorder: each begins with the guides of its depth, and only those of nodes have a place. The
pane splits every row where the printer joined it, whichever rows are in view. Names may be
made of guides, as long as they are words, and those of every program that is parsed are. -/
theorem tree_pane_splits_rows :
    (∀ {program : Program}, program.Everywhere Expression.Worded →
      Text.lines (program.tree true) = (program.rows true).map (fun row => row.text.toList) ∧
        List.Forall₂ Subject.Heads program.subjects (program.rows true) ∧
        (∀ row ∈ program.rows true,
          row.text.toList = row.guides.toList ++ (row.label.toList ++ row.place.toList) ∧
            TreePane.parts row.text.toList =
              (row.guides.toList, row.label.toList, row.place.toList)) ∧
        ∀ offset height,
          TreePane.visible (Session.rowsOf (.ok program)) none offset height =
            (((program.rows true).drop offset).take (Pane.visibleLines height)).map
              TreeRow.paneLine) ∧
    ∀ {source : String} {program : Program}, parse source = .ok program →
      program.Everywhere Expression.Worded := by
  constructor
  · intro program worded
    have heads := Program.row_heads worded
    have split : ∀ row ∈ program.rows true, TreePane.parts row.text.toList =
        (row.guides.toList, row.label.toList, row.place.toList) := by
      intro row among
      obtain ⟨subject, first⟩ := heads row among
      exact first.parts
    refine ⟨Program.tree_lines worded, Program.rows_heads worded,
      fun row among => ⟨row.text_parts, split row among⟩, fun offset height => ?_⟩
    unfold TreePane.visible
    rw [Session.rowsOf_eq worded, ← List.map_drop, ← List.map_take]
    dsimp only
    rw [List.map_map]
    apply List.map_congr_left
    intro row among
    have shown := split row (List.mem_of_mem_drop (List.mem_of_mem_take among))
    unfold TreePane.rowLine
    rw [Function.comp_apply, shown]
    rfl
  · intro source program parsed tree among
    exact (drawable_of_parse parsed tree among).imp fun _ holds => holds.2

/-- The program `if (│()) { }`, in which a bar is the name of a function. -/
def barCondition : Program :=
  ⟨[.conditional [.call "│" [] ⟨0, 4⟩] [[]] none ⟨0, 0⟩]⟩

/-- The bar in the label is no guide, and the group behind it has no place. -/
theorem tree_pane_splits_rows_of_barCondition :
    parse "if (│()) { }" = .ok barCondition ∧ barCondition.Everywhere Expression.Worded ∧
      TreePane.visible (Session.rowsOf (.ok barCondition)) none 3 4 =
        [TreeRow.paneLine ⟨"    │   └── ", "FunctionCall \"│\" (no arguments)", " @1:5"⟩,
          TreeRow.paneLine ⟨"    └── ", "Then: (empty)", ""⟩] := by
  have parsed : parse "if (│()) { }" = .ok barCondition := rfl
  have worded := tree_pane_splits_rows.2 parsed
  obtain ⟨_, _, _, visible⟩ := tree_pane_splits_rows.1 worded
  exact ⟨parsed, worded, (visible 3 4).trans rfl⟩

end Shading
