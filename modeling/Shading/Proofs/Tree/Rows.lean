import Shading.Proofs.Tree.Outline
import Shading.Viewer.TreePane

/-!
Rows tell what they were drawn from.

The viewer cuts a row into guides, label and place again, and finds the parts that the
row was joined from. The length of the guides is the depth of the item, and the depths of
all items in order are enough to put them back together into one outline.
-/

namespace Shading

/-! ### Cutting a row -/

/-- Neither an at sign nor a line feed. -/
def Plain (text : List Char) : Prop := ∀ character ∈ text, character ≠ '@' ∧ character ≠ '\n'

instance (text : List Char) : Decidable (Plain text) := List.decidableBAll _ text

/-- A label as a row can be cut behind: it begins with no guide, and keeps to its line and
away from the place. -/
structure CleanLabel (label : List Char) : Prop where
  begins : ∃ first others, label = first :: others ∧ TreePane.isGuide first = false
  inside : Plain label

/-- A place as a row can be cut in front of: there is none, or it begins with a blank and
the only at sign. -/
def CleanPlace (place : List Char) : Prop :=
  place = [] ∨ ∃ shown, place = ' ' :: '@' :: shown ∧ Plain shown

namespace TreePane

theorem cutAtPlace_label {label : List Char} (inside : ∀ character ∈ label, character ≠ '@') :
    cutAtPlace label = (label, []) := by
  induction label with
  | nil => rfl
  | cons character rest ih =>
      obtain ⟨_, restInside⟩ := List.forall_mem_cons.mp inside
      have noSign : (rest.head? == some '@') = false := by
        cases rest with
        | nil => rfl
        | cons next later => simpa using restInside next List.mem_cons_self
      rw [cutAtPlace, ih restInside]
      simp [noSign]

theorem cutAtPlace_append {label shown : List Char} (inside : ∀ character ∈ label, character ≠ '@')
    (shownInside : ∀ character ∈ shown, character ≠ '@') :
    cutAtPlace (label ++ ' ' :: '@' :: shown) = (label, ' ' :: '@' :: shown) := by
  induction label with
  | nil =>
      rw [List.nil_append, cutAtPlace, cutAtPlace, cutAtPlace_label shownInside]
      rfl
  | cons character rest ih =>
      obtain ⟨_, restInside⟩ := List.forall_mem_cons.mp inside
      rw [List.cons_append, cutAtPlace, ih restInside]
      rfl

theorem cutAtPlace_clean {label place : List Char} (labelled : CleanLabel label)
    (placed : CleanPlace place) : cutAtPlace (label ++ place) = (label, place) := by
  have inside : ∀ character ∈ label, character ≠ '@' :=
    fun character among => (labelled.inside character among).1
  rcases placed with rfl | ⟨shown, rfl, shownInside⟩
  · rw [List.append_nil]
    exact cutAtPlace_label inside
  · exact cutAtPlace_append inside fun character among => (shownInside character among).1

/-- A row is cut into the parts that it was joined from. -/
theorem parts_append {guides label place : List Char}
    (guiding : ∀ character ∈ guides, isGuide character = true) (labelled : CleanLabel label)
    (placed : CleanPlace place) : parts (guides ++ (label ++ place)) = (guides, label, place) := by
  have stops : (label ++ place).takeWhile isGuide = [] ∧
      (label ++ place).dropWhile isGuide = label ++ place := by
    obtain ⟨first, others, rfl, noGuide⟩ := labelled.begins
    rw [List.cons_append, List.takeWhile_cons, List.dropWhile_cons, noGuide]
    exact ⟨rfl, rfl⟩
  unfold parts
  rw [List.takeWhile_append_of_pos guiding, List.dropWhile_append_of_pos guiding, stops.1, stops.2,
    List.append_nil, cutAtPlace_clean labelled placed]

end TreePane

namespace TreeRow

open TreePrinter (ancestorGuide connector)

theorem ancestorGuide_guiding (wasLast : Bool) :
    (ancestorGuide wasLast).toList.length = 4 ∧
      ∀ character ∈ (ancestorGuide wasLast).toList, TreePane.isGuide character = true := by
  cases wasLast <;> exact ⟨rfl, List.all_eq_true.mp rfl⟩

theorem connector_guiding (isLast : Bool) :
    (connector isLast).toList.length = 4 ∧
      ∀ character ∈ (connector isLast).toList, TreePane.isGuide character = true := by
  cases isLast <;> exact ⟨rfl, List.all_eq_true.mp rfl⟩

theorem guidesOf_guiding (ancestors : List Bool) (isLast : Bool) :
    (guidesOf ancestors isLast).toList.length = 4 * (ancestors.length + 1) ∧
      ∀ character ∈ (guidesOf ancestors isLast).toList, TreePane.isGuide character = true := by
  unfold guidesOf
  rw [String.toList_append, String.toList_join, List.flatMap_map]
  induction ancestors with
  | nil => exact connector_guiding isLast
  | cons wasLast ancestors ih =>
      obtain ⟨length, guiding⟩ := ancestorGuide_guiding wasLast
      obtain ⟨lengthRest, guidingRest⟩ := ih
      rw [List.flatMap_cons, List.append_assoc]
      constructor
      · rw [List.length_append, length, lengthRest, List.length_cons]
        omega
      · exact List.forall_mem_append.mpr ⟨guiding, guidingRest⟩

end TreeRow

/-! ### What rows tell -/

structure Entry where
  depth : Nat
  label : String
  place : String
deriving DecidableEq, Repr

def Entry.ofRow (row : String) : Entry :=
  let (guides, label, place) := TreePane.parts row.toList
  ⟨guides.length / 4, String.ofList label, String.ofList place⟩

theorem Entry.ofRow_text {ancestors : List Bool} {isLast : Bool} {label place : String}
    (labelled : CleanLabel label.toList) (placed : CleanPlace place.toList) :
    ofRow (TreeRow.text ⟨TreeRow.guidesOf ancestors isLast, label, place⟩) =
      ⟨ancestors.length + 1, label, place⟩ := by
  obtain ⟨length, guiding⟩ := TreeRow.guidesOf_guiding ancestors isLast
  unfold ofRow TreeRow.text
  rw [String.toList_append, String.toList_append, List.append_assoc,
    TreePane.parts_append guiding labelled placed]
  dsimp only
  rw [length, Nat.mul_div_cancel_left _ (by decide), String.ofList_toList, String.ofList_toList]

example : Entry.ofRow "    │   └── Infix '+' @1:2" = ⟨3, "Infix '+'", " @1:2"⟩ := rfl

namespace Outline

inductive Clean : Outline → Prop where
  | item {label place : String} {parts : List Outline} (labelled : CleanLabel label.toList)
      (placed : CleanPlace place.toList) (inside : ∀ part ∈ parts, Clean part) :
      Clean (.item label place parts)

mutual

def entries (depth : Nat) : Outline → List Entry
  | item label place parts => ⟨depth, label, place⟩ :: entriesAll (depth + 1) parts

def entriesAll (depth : Nat) : List Outline → List Entry
  | [] => []
  | outline :: others => entries depth outline ++ entriesAll depth others

end

mutual

/-- The rows of an outline tell its items. -/
theorem ofRow_draw {outline : Outline} {ancestors : List Bool} {isLast : Bool}
    (clean : outline.Clean) :
    (outline.draw ancestors isLast).map (fun row => Entry.ofRow row.text) =
      outline.entries (ancestors.length + 1) := by
  match outline with
  | .item label place parts =>
      cases clean with
      | item labelled placed inside =>
          rw [draw, Drawing.node, List.map_cons, Entry.ofRow_text labelled placed,
            ofRow_siblings inside, List.length_append, List.length_singleton, entries]

theorem ofRow_siblings {outlines : List Outline} {ancestors : List Bool}
    (clean : ∀ outline ∈ outlines, outline.Clean) :
    (Drawing.siblings ancestors (drawAll outlines)).map (fun row => Entry.ofRow row.text) =
      entriesAll (ancestors.length + 1) outlines := by
  match outlines with
  | [] => rfl
  | outline :: others =>
      obtain ⟨first, following⟩ := List.forall_mem_cons.mp clean
      rw [drawAll, Drawing.siblings_cons, List.map_append, ofRow_draw first,
        ofRow_siblings following, entriesAll]

end

/-! ### Depths put items back together -/

def Above (depth : Nat) (entries : List Entry) : Prop :=
  ∀ entry, entries.head? = some entry → entry.depth < depth

theorem above_entriesAll {depth : Nat} {rest : List Entry} (outlines : List Outline)
    (ends : Above depth rest) : Above (depth + 1) (entriesAll depth outlines ++ rest) := by
  cases outlines with
  | nil =>
      intro entry head
      exact Nat.lt_succ_of_lt (ends entry head)
  | cons outline others =>
      cases outline with
      | item label place parts =>
          rintro entry ⟨⟩
          exact Nat.lt_succ_self depth

mutual

theorem entries_injective {left right : Outline} {depth : Nat} {rest later : List Entry}
    (ends : Above (depth + 1) rest) (endsLater : Above (depth + 1) later)
    (same : left.entries depth ++ rest = right.entries depth ++ later) :
    left = right ∧ rest = later := by
  match left, right with
  | .item label place parts, .item otherLabel otherPlace otherParts =>
      -- What follows the parts is not deeper than the item, so the parts end in front of it.
      obtain ⟨first, following⟩ := List.cons.inj same
      cases first
      obtain ⟨rfl, rfl⟩ := entriesAll_injective ends endsLater following
      exact ⟨rfl, rfl⟩

theorem entriesAll_injective {left right : List Outline} {depth : Nat} {rest later : List Entry}
    (ends : Above depth rest) (endsLater : Above depth later)
    (same : entriesAll depth left ++ rest = entriesAll depth right ++ later) :
    left = right ∧ rest = later := by
  match left, right with
  | [], [] => exact ⟨rfl, same⟩
  | [], .item label place parts :: others =>
      have deep : rest.head? = some ⟨depth, label, place⟩ := by
        rw [show rest = _ from same]
        rfl
      exact absurd (ends _ deep) (Nat.lt_irrefl depth)
  | .item label place parts :: others, [] =>
      have deep : later.head? = some ⟨depth, label, place⟩ := by
        rw [show later = _ from same.symm]
        rfl
      exact absurd (endsLater _ deep) (Nat.lt_irrefl depth)
  | first :: others, second :: more =>
      rw [entriesAll, entriesAll, List.append_assoc, List.append_assoc] at same
      obtain ⟨rfl, following⟩ := entries_injective (above_entriesAll others ends)
        (above_entriesAll more endsLater) same
      obtain ⟨rfl, rfl⟩ := entriesAll_injective ends endsLater following
      exact ⟨rfl, rfl⟩

end

end Outline

/-! ### Lines -/

structure TreeRow.Clean (row : TreeRow) : Prop where
  guided : ∃ ancestors isLast, row.guides = guidesOf ancestors isLast
  labelled : CleanLabel row.label.toList
  placed : CleanPlace row.place.toList

theorem part_unique {α : Type} {mark : α} {first second rest later : List α}
    (firstFree : mark ∉ first) (secondFree : mark ∉ second)
    (same : first ++ mark :: rest = second ++ mark :: later) : first = second ∧ rest = later := by
  induction first generalizing second with
  | nil =>
      cases second with
      | nil => exact ⟨rfl, (List.cons.inj same).2⟩
      | cons head tail =>
          cases same
          exact absurd List.mem_cons_self secondFree
  | cons head tail ih =>
      cases second with
      | nil =>
          cases same
          exact absurd List.mem_cons_self firstFree
      | cons other more =>
          obtain ⟨rfl, following⟩ := List.cons.inj same
          obtain ⟨rfl, rests⟩ := ih (fun among => firstFree (List.mem_cons_of_mem _ among))
            (fun among => secondFree (List.mem_cons_of_mem _ among)) following
          exact ⟨rfl, rests⟩

namespace TreeRow

theorem Clean.noFeed {row : TreeRow} (clean : row.Clean) : '\n' ∉ row.text.toList := by
  obtain ⟨⟨ancestors, isLast, guides⟩, labelled, placed⟩ := clean
  unfold text
  rw [guides, String.toList_append, String.toList_append, List.mem_append, List.mem_append]
  rintro ((inGuides | inLabel) | inPlace)
  · have guiding := (guidesOf_guiding ancestors isLast).2 _ inGuides
    cases guiding
  · exact (labelled.inside _ inLabel).2 rfl
  · rcases placed with nothing | ⟨shown, written, inside⟩
    · rw [nothing] at inPlace
      cases inPlace
    · rw [written, List.mem_cons, List.mem_cons] at inPlace
      rcases inPlace with blank | sign | inShown
      · cases blank
      · cases sign
      · exact (inside _ inShown).2 rfl

/-- Ended lines tell the rows that they were made of. -/
theorem lines_injective {left right : List TreeRow}
    (leftLines : ∀ row ∈ left, '\n' ∉ row.text.toList)
    (rightLines : ∀ row ∈ right, '\n' ∉ row.text.toList) (same : lines left = lines right) :
    left.map text = right.map text := by
  have characters := congrArg String.toList same
  unfold lines at characters
  rw [String.toList_join, String.toList_join, List.flatMap_map, List.flatMap_map] at characters
  clear same
  induction left generalizing right with
  | nil =>
      cases right with
      | nil => rfl
      | cons row others => simp at characters
  | cons row others ih =>
      cases right with
      | nil => simp at characters
      | cons second more =>
          obtain ⟨rowLine, othersLines⟩ := List.forall_mem_cons.mp leftLines
          obtain ⟨secondLine, moreLines⟩ := List.forall_mem_cons.mp rightLines
          rw [List.flatMap_cons, List.flatMap_cons, String.toList_append, String.toList_append,
            List.append_assoc, List.append_assoc] at characters
          obtain ⟨texts, following⟩ := part_unique rowLine secondLine characters
          rw [List.map_cons, List.map_cons, String.toList_inj.mp texts,
            ih othersLines moreLines following]

end TreeRow

namespace Outline

mutual

theorem clean_draw {outline : Outline} {ancestors : List Bool} {isLast : Bool}
    (clean : outline.Clean) : ∀ row ∈ outline.draw ancestors isLast, row.Clean := by
  match outline with
  | .item label place parts =>
      cases clean with
      | item labelled placed inside =>
          rw [draw, Drawing.node]
          exact List.forall_mem_cons.mpr
            ⟨⟨⟨ancestors, isLast, rfl⟩, labelled, placed⟩, clean_siblings inside⟩

theorem clean_siblings {outlines : List Outline} {ancestors : List Bool}
    (clean : ∀ outline ∈ outlines, outline.Clean) :
    ∀ row ∈ Drawing.siblings ancestors (drawAll outlines), row.Clean := by
  match outlines with
  | [] => nofun
  | outline :: others =>
      obtain ⟨first, following⟩ := List.forall_mem_cons.mp clean
      rw [drawAll, Drawing.siblings_cons]
      exact List.forall_mem_append.mpr ⟨clean_draw first, clean_siblings following⟩

end

theorem siblings_injective {left right : List Outline} {root : TreeRow}
    (leftClean : ∀ outline ∈ left, outline.Clean) (rightClean : ∀ outline ∈ right, outline.Clean)
    (rootLine : '\n' ∉ root.text.toList)
    (same : TreeRow.lines (root :: Drawing.siblings [] (drawAll left)) =
      TreeRow.lines (root :: Drawing.siblings [] (drawAll right))) : left = right := by
  have lines : ∀ {outlines : List Outline}, (∀ outline ∈ outlines, outline.Clean) →
      ∀ row ∈ root :: Drawing.siblings [] (drawAll outlines), '\n' ∉ row.text.toList := by
    intro outlines clean
    refine List.forall_mem_cons.mpr ⟨rootLine, ?_⟩
    intro row among
    exact (clean_siblings clean row among).noFeed
  obtain ⟨_, texts⟩ :=
    List.cons.inj (TreeRow.lines_injective (lines leftClean) (lines rightClean) same)
  have told := congrArg (List.map Entry.ofRow) texts
  rw [List.map_map, List.map_map] at told
  have entries : entriesAll 1 left = entriesAll 1 right :=
    (ofRow_siblings leftClean).symm.trans (told.trans (ofRow_siblings rightClean))
  have alone : Above 1 [] := nofun
  have behind : entriesAll 1 left ++ [] = entriesAll 1 right ++ [] := by rw [entries]
  exact (entriesAll_injective alone alone behind).1

end Outline

end Shading
