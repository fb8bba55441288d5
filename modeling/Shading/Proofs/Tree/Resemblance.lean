import Shading.Proofs.Tree.Labels

/-!
Drawn trees determine programs.

Trees resemble each other if they are equal but for their numbers, which need only have
the same text, and for their places, where places are not shown. They do exactly if they
have the same outline, and the outline can be told from the printed rows.
-/

namespace Shading

namespace Expression

/-! ### Resemblance -/

mutual

/-- Equality of trees as far as they are shown. -/
inductive Resembles (located : Bool) : Expression → Expression → Prop where
  | number {value other : Float} {place otherPlace : Location}
      (texts : Number.text value = Number.text other)
      (places : located = true → place = otherPlace) :
      Resembles located (number value place) (number other otherPlace)
  | truth {value : Bool} {place otherPlace : Location}
      (places : located = true → place = otherPlace) :
      Resembles located (truth value place) (truth value otherPlace)
  | memberName {name : String} {place otherPlace : Location}
      (places : located = true → place = otherPlace) :
      Resembles located (memberName name place) (memberName name otherPlace)
  | declaration {type : ValueType} {name : String} {place otherPlace : Location}
      (places : located = true → place = otherPlace) :
      Resembles located (declaration type name place) (declaration type name otherPlace)
  | pipeline {role : PipelineRole} {name : String} {place otherPlace : Location}
      (places : located = true → place = otherPlace) :
      Resembles located (pipeline role name place) (pipeline role name otherPlace)
  | binary {operator : Operator} {left right otherLeft otherRight : Expression}
      {place otherPlace : Location} (lefts : Resembles located left otherLeft)
      (rights : Resembles located right otherRight)
      (places : located = true → place = otherPlace) :
      Resembles located (binary operator left right place)
        (binary operator otherLeft otherRight otherPlace)
  | unary {operator : Operator} {operand other : Expression} {place otherPlace : Location}
      (operands : Resembles located operand other)
      (places : located = true → place = otherPlace) :
      Resembles located (unary operator operand place) (unary operator other otherPlace)
  | parenthesized {inner other : Expression} {place otherPlace : Location}
      (inners : Resembles located inner other)
      (places : located = true → place = otherPlace) :
      Resembles located (parenthesized inner place) (parenthesized other otherPlace)
  | call {name : String} {values others : List Expression} {place otherPlace : Location}
      (arguments : AllResemble located values others)
      (places : located = true → place = otherPlace) :
      Resembles located (call name values place) (call name others otherPlace)
  | result {value other : Expression} {place otherPlace : Location}
      (values : Resembles located value other)
      (places : located = true → place = otherPlace) :
      Resembles located (result value place) (result other otherPlace)
  | conditional {conditions otherConditions : List Expression}
      {blocks otherBlocks : List (List Expression)} {last otherLast : Option (List Expression)}
      {place otherPlace : Location} (tests : AllResemble located conditions otherConditions)
      (bodies : BlocksResemble located blocks otherBlocks)
      (alternatives : OtherwiseResembles located last otherLast)
      (places : located = true → place = otherPlace) :
      Resembles located (conditional conditions blocks last place)
        (conditional otherConditions otherBlocks otherLast otherPlace)
  | loop {condition other : Expression} {block otherBlock : List Expression}
      {place otherPlace : Location} (tests : Resembles located condition other)
      (bodies : AllResemble located block otherBlock)
      (places : located = true → place = otherPlace) :
      Resembles located (loop condition block place) (loop other otherBlock otherPlace)
  | void {place otherPlace : Location} (places : located = true → place = otherPlace) :
      Resembles located (void place) (void otherPlace)

inductive AllResemble (located : Bool) : List Expression → List Expression → Prop where
  | nothing : AllResemble located [] []
  | more {left right : Expression} {others following : List Expression}
      (first : Resembles located left right) (rest : AllResemble located others following) :
      AllResemble located (left :: others) (right :: following)

inductive BlocksResemble (located : Bool) :
    List (List Expression) → List (List Expression) → Prop where
  | nothing : BlocksResemble located [] []
  | more {block other : List Expression} {others following : List (List Expression)}
      (first : AllResemble located block other) (rest : BlocksResemble located others following) :
      BlocksResemble located (block :: others) (other :: following)

inductive OtherwiseResembles (located : Bool) :
    Option (List Expression) → Option (List Expression) → Prop where
  | nothing : OtherwiseResembles located none none
  | block {block other : List Expression} (blocks : AllResemble located block other) :
      OtherwiseResembles located (some block) (some other)

end

end Expression

def Program.Resembles (located : Bool) (left right : Program) : Prop :=
  Expression.AllResemble located left.expressions right.expressions

/-! ### Outlines that are equal -/

namespace Outline

theorem group_injective {name : String} {left right : List Outline}
    (same : group name left = group name right) : left = right := by
  cases left with
  | nil =>
      cases right with
      | nil => rfl
      | cons member others => cases (Outline.item.inj same).2.2
  | cons member others =>
      cases right with
      | nil => cases (Outline.item.inj same).2.2
      | cons second more => exact (Outline.item.inj same).2.2

theorem condition_ne_else (condition : Outline) (block : List Outline) :
    group "Condition" [condition] ≠ group "Else" block := by
  intro same
  cases block with
  | nil => cases (Outline.item.inj same).2.2
  | cons member others => exact absurd (Outline.item.inj same).1 (by decide)

theorem otherwise_injective {last other : Option (List Outline)}
    (same : otherwise last = otherwise other) : last = other := by
  cases last with
  | none =>
      cases other with
      | none => rfl
      | some block => cases same
  | some block =>
      cases other with
      | none => cases same
      | some second => rw [group_injective (List.cons.inj same).1]

theorem arms_injective {conditions otherConditions : List Outline}
    {blocks otherBlocks : List (List Outline)} {last otherLast : Option (List Outline)}
    (paired : blocks.length = conditions.length)
    (otherPaired : otherBlocks.length = otherConditions.length)
    (same : arms conditions blocks ++ otherwise last =
      arms otherConditions otherBlocks ++ otherwise otherLast) :
    conditions = otherConditions ∧ blocks = otherBlocks ∧ last = otherLast := by
  induction conditions generalizing otherConditions blocks otherBlocks with
  | nil =>
      cases List.length_eq_zero_iff.mp paired
      cases otherConditions with
      | nil =>
          cases List.length_eq_zero_iff.mp otherPaired
          exact ⟨rfl, rfl, otherwise_injective same⟩
      | cons condition others =>
          cases otherBlocks with
          | nil => cases otherPaired
          | cons block more =>
              cases last with
              | none => cases same
              | some final => exact absurd (List.cons.inj same).1.symm (condition_ne_else _ _)
  | cons condition conditions ih =>
      cases blocks with
      | nil => cases paired
      | cons block blocks =>
          cases otherConditions with
          | nil =>
              cases List.length_eq_zero_iff.mp otherPaired
              cases otherLast with
              | none => cases same
              | some final => exact absurd (List.cons.inj same).1 (condition_ne_else _ _)
          | cons otherCondition otherConditions =>
              cases otherBlocks with
              | nil => cases otherPaired
              | cons otherBlock otherBlocks =>
                  obtain ⟨tests, behindTests⟩ := List.cons.inj same
                  obtain ⟨bodies, following⟩ := List.cons.inj behindTests
                  obtain ⟨rfl, rfl, rfl⟩ :=
                    ih (Nat.succ.inj paired) (Nat.succ.inj otherPaired) following
                  cases group_injective tests
                  cases group_injective bodies
                  exact ⟨rfl, rfl, rfl⟩

end Outline

namespace Expression

theorem item_injective {located : Bool} {left right : Expression} {parts others : List Outline}
    (same : left.item located parts = right.item located others) :
    left.form = right.form ∧ left.detail = right.detail ∧
      (located = true → left.location = right.location) ∧ parts = others := by
  obtain ⟨labels, places, rest⟩ := Outline.item.inj same
  obtain ⟨forms, details⟩ := label_injective labels
  refine ⟨forms, details, ?_, rest⟩
  rintro rfl
  unfold placeLabel at places
  rw [if_pos rfl, if_pos rfl] at places
  exact Location.shown_injective ((String.append_right_inj _).mp places)

theorem declaration_injective {type otherType : ValueType} {name other : String}
    (same : " " ++ type.word ++ " " ++ name = " " ++ otherType.word ++ " " ++ other) :
    type = otherType ∧ name = other := by
  rw [String.append_assoc, String.append_assoc, String.append_assoc, String.append_assoc] at same
  have characters := congrArg String.toList ((String.append_right_inj _).mp same)
  rw [String.toList_append, String.toList_append, String.toList_append, String.toList_append]
    at characters
  obtain ⟨types, names⟩ := part_unique type.word_plain.2 otherType.word_plain.2 characters
  exact ⟨ValueType.word_injective (String.toList_inj.mp types), String.toList_inj.mp names⟩

def parts (located : Bool) : Expression → List Outline
  | binary _ left right _ => [left.outline located, right.outline located]
  | unary _ operand _ => [operand.outline located]
  | parenthesized inner _ => [inner.outline located]
  | call _ values _ => outlines located values
  | result value _ => [value.outline located]
  | conditional conditions blocks otherwise _ =>
    Outline.arms (outlines located conditions) (blockOutlines located blocks) ++
      Outline.otherwise (otherwiseOutlines located otherwise)
  | loop condition block _ =>
    [Outline.group "Condition" [condition.outline located],
      Outline.group "Block" (outlines located block)]
  | _ => []

theorem outline_eq_item (located : Bool) (tree : Expression) :
    tree.outline located = tree.item located (tree.parts located) := by
  cases tree <;> rfl

theorem outlines_isEmpty (located : Bool) (trees : List Expression) :
    (outlines located trees).isEmpty = trees.isEmpty := by
  cases trees <;> rfl

mutual

theorem resembles_of_outline {located : Bool} {left right : Expression}
    (leftPaired : left.Everywhere Paired) (rightPaired : right.Everywhere Paired)
    (same : left.outline located = right.outline located) : left.Resembles located right := by
  rw [outline_eq_item, outline_eq_item] at same
  obtain ⟨forms, details, places, rest⟩ := item_injective same
  have leftInside := leftPaired.inside
  have rightInside := rightPaired.inside
  -- A node of another form has another label.
  match left with
  | .number value place =>
      cases right with
      | number other otherPlace =>
          exact .number ((String.append_right_inj _).mp details) places
      | _ => cases forms
  | .truth value place =>
      cases right with
      | truth other otherPlace =>
          cases forms
          exact .truth places
      | _ => cases forms
  | .memberName name place =>
      cases right with
      | memberName other otherPlace =>
          cases (String.append_right_inj _).mp ((String.append_left_inj _).mp details)
          exact .memberName places
      | _ => cases forms
  | .declaration type name place =>
      cases right with
      | declaration otherType other otherPlace =>
          obtain ⟨rfl, rfl⟩ := declaration_injective details
          exact .declaration places
      | _ => cases forms
  | .pipeline role name place =>
      cases right with
      | pipeline otherRole other otherPlace =>
          cases forms
          cases (String.append_right_inj _).mp ((String.append_left_inj _).mp details)
          exact .pipeline places
      | _ => cases forms
  | .binary operator first second place =>
      cases right with
      | binary otherOperator otherFirst otherSecond otherPlace =>
          cases Operator.text_injective ((String.append_right_inj _).mp details)
          obtain ⟨firstPaired, leftOthers⟩ := List.forall_mem_cons.mp leftInside
          obtain ⟨otherPaired, rightOthers⟩ := List.forall_mem_cons.mp rightInside
          obtain ⟨firsts, seconds⟩ := List.cons.inj rest
          exact .binary (resembles_of_outline firstPaired otherPaired firsts)
            (resembles_of_outline (List.forall_mem_singleton.mp leftOthers)
              (List.forall_mem_singleton.mp rightOthers) (List.cons.inj seconds).1) places
      | _ => cases forms
  | .unary operator operand place =>
      cases right with
      | unary otherOperator other otherPlace =>
          cases Operator.text_injective ((String.append_right_inj _).mp details)
          exact .unary (resembles_of_outline (List.forall_mem_singleton.mp leftInside)
            (List.forall_mem_singleton.mp rightInside) (List.cons.inj rest).1) places
      | _ => cases forms
  | .parenthesized inner place =>
      cases right with
      | parenthesized other otherPlace =>
          exact .parenthesized (resembles_of_outline (List.forall_mem_singleton.mp leftInside)
            (List.forall_mem_singleton.mp rightInside) (List.cons.inj rest).1) places
      | _ => cases forms
  | .call name values place =>
      cases right with
      | call other others otherPlace =>
          have valuesPaired : ∀ value ∈ values, value.Everywhere Paired := leftInside
          have outlined : outlines located values = outlines located others := rest
          have empty := congrArg List.isEmpty outlined
          rw [outlines_isEmpty, outlines_isEmpty] at empty
          rw [detail, detail, empty] at details
          cases (String.append_right_inj _).mp
            ((String.append_left_inj _).mp ((String.append_left_inj _).mp details))
          exact .call (allResemble_of_outlines valuesPaired rightInside outlined) places
      | _ => cases forms
  | .result value place =>
      cases right with
      | result other otherPlace =>
          exact .result (resembles_of_outline (List.forall_mem_singleton.mp leftInside)
            (List.forall_mem_singleton.mp rightInside) (List.cons.inj rest).1) places
      | _ => cases forms
  | .conditional conditions blocks last place =>
      cases right with
      | conditional otherConditions otherBlocks otherLast otherPlace =>
          obtain ⟨leftArms, lastPaired⟩ := List.forall_mem_append.mp leftInside
          obtain ⟨rightArms, otherLastPaired⟩ := List.forall_mem_append.mp rightInside
          obtain ⟨testsPaired, blocksPaired⟩ := List.forall_mem_append.mp leftArms
          obtain ⟨otherTestsPaired, otherBlocksPaired⟩ := List.forall_mem_append.mp rightArms
          obtain ⟨tests, bodies, alternatives⟩ := Outline.arms_injective
            (outlines_paired leftPaired.here) (outlines_paired rightPaired.here) rest
          exact .conditional (allResemble_of_outlines testsPaired otherTestsPaired tests)
            (blocksResemble_of_outlines blocksPaired otherBlocksPaired bodies)
            (otherwiseResembles_of_outlines lastPaired otherLastPaired alternatives) places
      | _ => cases forms
  | .loop condition block place =>
      cases right with
      | loop other otherBlock otherPlace =>
          obtain ⟨conditionPaired, blockPaired⟩ := List.forall_mem_cons.mp leftInside
          obtain ⟨otherPaired, otherBlockPaired⟩ := List.forall_mem_cons.mp rightInside
          obtain ⟨tests, bodies⟩ := List.cons.inj rest
          have conditions := Outline.group_injective tests
          have blocks := Outline.group_injective (List.cons.inj bodies).1
          have condition := (List.cons.inj conditions).1
          exact .loop (resembles_of_outline conditionPaired otherPaired condition)
            (allResemble_of_outlines blockPaired otherBlockPaired blocks) places
      | _ => cases forms
  | .void place =>
      cases right with
      | void otherPlace => exact .void places
      | _ => cases forms

theorem allResemble_of_outlines {located : Bool} {left right : List Expression}
    (leftPaired : ∀ tree ∈ left, tree.Everywhere Paired)
    (rightPaired : ∀ tree ∈ right, tree.Everywhere Paired)
    (same : outlines located left = outlines located right) : AllResemble located left right := by
  match left, right with
  | [], [] => exact .nothing
  | [], _ :: _ => cases same
  | _ :: _, [] => cases same
  | first :: others, second :: following =>
      obtain ⟨firstPaired, othersPaired⟩ := List.forall_mem_cons.mp leftPaired
      obtain ⟨secondPaired, followingPaired⟩ := List.forall_mem_cons.mp rightPaired
      obtain ⟨firsts, rest⟩ := List.cons.inj same
      exact .more (resembles_of_outline firstPaired secondPaired firsts)
        (allResemble_of_outlines othersPaired followingPaired rest)

theorem blocksResemble_of_outlines {located : Bool} {left right : List (List Expression)}
    (leftPaired : ∀ tree ∈ left.flatten, tree.Everywhere Paired)
    (rightPaired : ∀ tree ∈ right.flatten, tree.Everywhere Paired)
    (same : blockOutlines located left = blockOutlines located right) :
    BlocksResemble located left right := by
  match left, right with
  | [], [] => exact .nothing
  | [], _ :: _ => cases same
  | _ :: _, [] => cases same
  | block :: others, second :: following =>
      obtain ⟨blockPaired, othersPaired⟩ := List.forall_mem_append.mp leftPaired
      obtain ⟨secondPaired, followingPaired⟩ := List.forall_mem_append.mp rightPaired
      obtain ⟨blocks, rest⟩ := List.cons.inj same
      exact .more (allResemble_of_outlines blockPaired secondPaired blocks)
        (blocksResemble_of_outlines othersPaired followingPaired rest)

theorem otherwiseResembles_of_outlines {located : Bool} {left right : Option (List Expression)}
    (leftPaired : ∀ tree ∈ left.getD [], tree.Everywhere Paired)
    (rightPaired : ∀ tree ∈ right.getD [], tree.Everywhere Paired)
    (same : otherwiseOutlines located left = otherwiseOutlines located right) :
    OtherwiseResembles located left right := by
  match left, right with
  | none, none => exact .nothing
  | none, some _ => cases same
  | some _, none => cases same
  | some block, some second =>
      have blockPaired : ∀ tree ∈ block, tree.Everywhere Paired := leftPaired
      exact .block (allResemble_of_outlines blockPaired rightPaired (Option.some.inj same))

end

/-! ### The other way round -/

theorem item_congr {located : Bool} {left right : Expression} {parts others : List Outline}
    (forms : left.form = right.form) (details : left.detail = right.detail)
    (places : located = true → left.location = right.location) (rest : parts = others) :
    left.item located parts = right.item located others := by
  unfold item placeLabel
  rw [label_eq, label_eq, forms, details, rest]
  cases located with
  | false => rfl
  | true => rw [places rfl]

mutual

theorem outline_of_resembles {located : Bool} {left right : Expression}
    (resembles : left.Resembles located right) :
    left.outline located = right.outline located := by
  match resembles with
  | .number texts places => exact item_congr rfl (congrArg (" " ++ ·) texts) places rfl
  | .truth places => exact item_congr rfl rfl places rfl
  | .memberName places => exact item_congr rfl rfl places rfl
  | .declaration places => exact item_congr rfl rfl places rfl
  | .pipeline places => exact item_congr rfl rfl places rfl
  | .binary lefts rights places =>
      refine item_congr rfl rfl places ?_
      rw [outline_of_resembles lefts, outline_of_resembles rights]
  | .unary operands places =>
      refine item_congr rfl rfl places ?_
      rw [outline_of_resembles operands]
  | .parenthesized inners places =>
      refine item_congr rfl rfl places ?_
      rw [outline_of_resembles inners]
  | .call arguments places =>
      have outlined := outlines_of_allResemble arguments
      have empty := congrArg List.isEmpty outlined
      rw [outlines_isEmpty, outlines_isEmpty] at empty
      refine item_congr rfl ?_ places outlined
      rw [detail, detail, empty]
  | .result values places =>
      refine item_congr rfl rfl places ?_
      rw [outline_of_resembles values]
  | .conditional tests bodies alternatives places =>
      refine item_congr rfl rfl places ?_
      rw [outlines_of_allResemble tests, outlines_of_blocksResemble bodies,
        outlines_of_otherwiseResembles alternatives]
  | .loop tests bodies places =>
      refine item_congr rfl rfl places ?_
      rw [outline_of_resembles tests, outlines_of_allResemble bodies]
  | .void places => exact item_congr rfl rfl places rfl

theorem outlines_of_allResemble {located : Bool} {left right : List Expression}
    (resemble : AllResemble located left right) :
    outlines located left = outlines located right := by
  match resemble with
  | .nothing => rfl
  | .more first rest =>
      rw [outlines, outline_of_resembles first, outlines_of_allResemble rest]
      rfl

theorem outlines_of_blocksResemble {located : Bool} {left right : List (List Expression)}
    (resemble : BlocksResemble located left right) :
    blockOutlines located left = blockOutlines located right := by
  match resemble with
  | .nothing => rfl
  | .more first rest =>
      rw [blockOutlines, outlines_of_allResemble first, outlines_of_blocksResemble rest]
      rfl

theorem outlines_of_otherwiseResembles {located : Bool} {left right : Option (List Expression)}
    (resemble : OtherwiseResembles located left right) :
    otherwiseOutlines located left = otherwiseOutlines located right := by
  match resemble with
  | .nothing => rfl
  | .block blocks =>
      rw [otherwiseOutlines, outlines_of_allResemble blocks]
      rfl

end

end Expression

/-- A node whose names are made of word characters and which has as many blocks as
conditions, if it is a conditional. -/
def Expression.Drawable (tree : Expression) : Prop := tree.Paired ∧ tree.Worded

theorem Program.tree_eq_draw {located : Bool} {program : Program}
    (drawable : program.Everywhere Expression.Drawable) :
    program.tree located =
      TreeRow.lines (⟨"", "Program", ""⟩ :: Drawing.siblings []
        (Outline.drawAll (Expression.outlines located program.expressions))) := by
  have paired : program.Everywhere Expression.Paired :=
    fun tree among => (drawable tree among).imp fun _ holds => holds.1
  rw [← program.rows_eq_draw paired, Program.tree_eq_lines]

/-- Programs have the same printed tree exactly if they are equal as far as it is shown. -/
theorem Program.tree_eq_iff {located : Bool} {left right : Program}
    (leftDrawable : left.Everywhere Expression.Drawable)
    (rightDrawable : right.Everywhere Expression.Drawable) :
    left.tree located = right.tree located ↔ left.Resembles located right := by
  have outlined : ∀ {program : Program}, program.Everywhere Expression.Drawable →
      ∀ outline ∈ Expression.outlines located program.expressions, outline.Clean := by
    intro program drawable
    refine Expression.clean_outlines fun tree among => ?_
    exact (drawable tree among).imp fun _ holds => holds.2
  rw [Program.tree_eq_draw leftDrawable, Program.tree_eq_draw rightDrawable]
  constructor
  · intro same
    have outlines := Outline.siblings_injective (outlined leftDrawable) (outlined rightDrawable)
      (by decide) same
    exact Expression.allResemble_of_outlines
      (fun tree among => (leftDrawable tree among).imp fun _ holds => holds.1)
      (fun tree among => (rightDrawable tree among).imp fun _ holds => holds.1) outlines
  · intro resemble
    rw [Expression.outlines_of_allResemble resemble]

end Shading
