import Mathlib.Data.List.Infix
import Shading.Proofs.Tree.Outline

/-!
Where a row stands in a printed tree.

An address says which part to go to at every item on the way from the root, so items have
their addresses in preorder when these are in lexicographic order. A printed program is
one row for every address: the guides of a row follow from which items on the way to it
are last children, and need nothing of the rows around it.
-/

namespace Shading

namespace Outline

def parts : Outline → List Outline
  | item _ _ parts => parts

def at? (root : Outline) : List Nat → Option Outline
  | [] => some root
  | number :: address => root.parts[number]?.bind fun part => part.at? address

mutual

/-- The addresses of all items in preorder. -/
def addresses : Outline → List (List Nat)
  | item _ _ parts => [] :: addressesFrom 0 parts

/-- The addresses of parts and of what is below them; the first part has this number. -/
def addressesFrom (number : Nat) : List Outline → List (List Nat)
  | [] => []
  | part :: others => part.addresses.map (number :: ·) ++ addressesFrom (number + 1) others

end

def isLast (root : Outline) (address : List Nat) : Bool :=
  match root.at? address.dropLast, address.getLast? with
  | some parent, some number => number + 1 == parent.parts.length
  | _, _ => false

/-- The addresses on the way from the root to an item, the item itself included and the
root left out. -/
def wayTo (address : List Nat) : List (List Nat) := address.inits.tail

/-- What stands in front of the label of an item: nothing for the root, and otherwise a
blank or a bar for each strict ancestor below the root, and a connector. -/
def guidesAt (root : Outline) (address : List Nat) : String :=
  if address = [] then
    ""
  else
    String.join ((wayTo address.dropLast).map fun ancestor =>
      if root.isLast ancestor then "    " else "│   ") ++
    if root.isLast address then "└── " else "├── "

/-- The row of the item that an address leads to. -/
def rowAt (root : Outline) (address : List Nat) : String :=
  match root.at? address with
  | some (item label place _) => root.guidesAt address ++ label ++ place
  | none => ""

/-! ### Every item has one address -/

theorem at?_append (root : Outline) (first second : List Nat) :
    root.at? (first ++ second) = (root.at? first).bind fun part => part.at? second := by
  induction first generalizing root with
  | nil => rfl
  | cons number first ih =>
      rw [List.cons_append, at?, at?, Option.bind_assoc]
      congr 1
      funext part
      exact ih part

mutual

theorem mem_addresses {root : Outline} {address : List Nat} :
    address ∈ root.addresses ↔ (root.at? address).isSome := by
  match root with
  | item label place parts =>
      rw [addresses, List.mem_cons, mem_addressesFrom]
      cases address with
      | nil => simp [at?]
      | cons number address => simp [at?, Outline.parts]

theorem mem_addressesFrom {first : Nat} {outlines : List Outline} {address : List Nat} :
    address ∈ addressesFrom first outlines ↔
      ∃ number behind, address = (first + number) :: behind ∧
        (outlines[number]?.bind fun part => part.at? behind).isSome := by
  match outlines with
  | [] => simp [addressesFrom]
  | part :: others =>
      rw [addressesFrom, List.mem_append, List.mem_map, mem_addressesFrom]
      constructor
      · intro either
        rcases either with ⟨behind, among, rfl⟩ | ⟨number, behind, rfl, among⟩
        · exact ⟨0, behind, rfl, mem_addresses.mp among⟩
        · exact ⟨number + 1, behind, by rw [Nat.add_assoc, Nat.add_comm 1], among⟩
      · intro found
        obtain ⟨number, behind, rfl, among⟩ := found
        cases number with
        | zero => exact .inl ⟨behind, mem_addresses.mpr among, rfl⟩
        | succ number =>
            exact .inr ⟨number, behind, by rw [Nat.add_assoc, Nat.add_comm 1], among⟩

end

mutual

/-- A parent stands in front of its parts, and parts stand in order. -/
theorem addresses_ordered (root : Outline) : root.addresses.Pairwise (· < ·) := by
  match root with
  | item label place parts =>
      rw [addresses, List.pairwise_cons]
      refine ⟨?_, addressesFrom_ordered 0 parts⟩
      intro address among
      obtain ⟨number, behind, rfl, _⟩ := mem_addressesFrom.mp among
      exact List.nil_lt_cons _ _

theorem addressesFrom_ordered (first : Nat) (outlines : List Outline) :
    (addressesFrom first outlines).Pairwise (· < ·) := by
  match outlines with
  | [] => exact .nil
  | part :: others =>
      rw [addressesFrom, List.pairwise_append]
      refine ⟨?_, addressesFrom_ordered (first + 1) others, ?_⟩
      · apply (addresses_ordered part).map
        intro left right before
        exact List.cons_lt_cons_iff.mpr (.inr ⟨rfl, before⟩)
      · intro left amongFirst right amongOthers
        obtain ⟨_, _, rfl⟩ := List.mem_map.mp amongFirst
        obtain ⟨number, _, rfl, _⟩ := mem_addressesFrom.mp amongOthers
        exact List.cons_lt_cons_iff.mpr (.inl (by omega))

end

/-! ### Rows at addresses -/

def flags (root : Outline) (address : List Nat) : List Bool := (wayTo address).map root.isLast

theorem flags_append (root : Outline) (address : List Nat) (number : Nat) :
    root.flags (address ++ [number]) =
      root.flags address ++ [root.isLast (address ++ [number])] := by
  unfold flags wayTo
  rw [List.inits_append]
  cases address <;> simp

theorem guidesAt_append (root : Outline) (address : List Nat) (number : Nat) :
    root.guidesAt (address ++ [number]) =
      TreeRow.guidesOf (root.flags address) (root.isLast (address ++ [number])) := by
  unfold guidesAt TreeRow.guidesOf flags TreePrinter.connector
  rw [if_neg (List.append_ne_nil_of_right_ne_nil _ (List.cons_ne_nil _ _)), List.dropLast_concat,
    List.map_map]
  rfl

theorem isLast_append {root parent : Outline} {address : List Nat}
    (found : root.at? address = some parent) (number : Nat) :
    root.isLast (address ++ [number]) = (number + 1 == parent.parts.length) := by
  unfold isLast
  rw [List.dropLast_concat, List.getLast?_concat, found]

mutual

/-- An item below the root is drawn as the rows at its address and behind it. -/
theorem draw_eq_rows {root outline : Outline} {address : List Nat} {number : Nat}
    (found : root.at? (address ++ [number]) = some outline) :
    (outline.draw (root.flags address) (root.isLast (address ++ [number]))).map TreeRow.text =
      outline.addresses.map fun behind => root.rowAt (address ++ [number] ++ behind) := by
  match outline with
  | item label place parts =>
      have below := siblings_eq_rows [] found rfl
      rw [draw, Drawing.node, addresses, List.map_cons, List.map_cons, ← flags_append, below,
        List.append_nil, rowAt, found, guidesAt_append]
      rfl

theorem siblings_eq_rows {root parent : Outline} {address : List Nat} (done : List Outline)
    {outlines : List Outline} (found : root.at? address = some parent)
    (split : parent.parts = done ++ outlines) :
    (Drawing.siblings (root.flags address) (drawAll outlines)).map TreeRow.text =
      (addressesFrom done.length outlines).map fun behind => root.rowAt (address ++ behind) := by
  match outlines with
  | [] => rfl
  | outline :: others =>
      have here : root.at? (address ++ [done.length]) = some outline := by
        rw [at?_append, found, Option.bind_some, at?, split,
          List.getElem?_append_right (Nat.le_refl _), Nat.sub_self]
        rfl
      -- A part is drawn as the last child exactly if no part follows it.
      have last : root.isLast (address ++ [done.length]) = others.isEmpty := by
        rw [isLast_append found, split]
        cases others <;> simp
      have first := draw_eq_rows here
      have following := siblings_eq_rows (done ++ [outline]) found
        (split.trans (List.append_cons done outline others))
      rw [List.length_append, List.length_singleton] at following
      rw [drawAll, Drawing.siblings_cons, drawAll_isEmpty, ← last, List.map_append, first,
        following, addressesFrom, List.map_append, List.map_map]
      congr 2
      funext behind
      exact congrArg root.rowAt (List.append_assoc _ _ _)

end

end Outline

/-! ### Printed programs -/

theorem Program.rows_eq_rowAt (located : Bool) {program : Program}
    (paired : program.Everywhere Expression.Paired) :
    (program.rows located).map TreeRow.text =
      (program.outline located).addresses.map (program.outline located).rowAt := by
  have found : (program.outline located).at? [] = some (program.outline located) := rfl
  have below := Outline.siblings_eq_rows [] found rfl
  rw [Program.rows_eq_draw paired, List.map_cons]
  exact congrArg (List.cons "Program") below

namespace TreePrinter

/-- While nothing is open, a program is printed as on a new printer, behind what was
printed before, and then nothing is open again. -/
theorem print_closed (located : Bool) (output : String) (program : Program) :
    print ⟨located, output, []⟩ program = ⟨located, output ++ program.tree located, []⟩ := by
  rw [print_eq, Program.tree_eq_lines]
  rfl

theorem printTimes_closed (located : Bool) (output : String) (program : Program) (times : Nat) :
    printTimes ⟨located, output, []⟩ program times =
      ⟨located, output ++ String.join (List.replicate times (program.tree located)), []⟩ := by
  induction times generalizing output with
  | zero => exact congrArg (TreePrinter.mk located · []) String.append_empty.symm
  | succ times ih =>
      rw [printTimes, print_closed, ih, List.replicate_succ, String.join_cons,
        String.append_assoc]

end TreePrinter

/-- The text of a program whose conditionals have a block for every condition has one row
for each item of its outline, in preorder, behind the guides that belong to the address of
the item. Printing any program several times on one printer gives its text as often, and
leaves no node open. -/
theorem tree_eq_rows_in_preorder :
    (∀ (located : Bool) {program : Program}, program.Everywhere Expression.Paired →
      let root := program.outline located
      program.tree located =
          String.join (root.addresses.map fun address => root.rowAt address ++ "\n") ∧
        root.addresses.Pairwise (· < ·) ∧
        ∀ address, address ∈ root.addresses ↔ (root.at? address).isSome) ∧
    ∀ (located : Bool) (program : Program) (times : Nat),
      (TreePrinter.empty located).printTimes program times =
        ⟨located, String.join (List.replicate times (program.tree located)), []⟩ := by
  constructor
  · intro located program paired root
    refine ⟨?_, root.addresses_ordered, fun _ => Outline.mem_addresses⟩
    have rows := congrArg (List.map fun row => row ++ "\n") (Program.rows_eq_rowAt located paired)
    rw [List.map_map, List.map_map] at rows
    rw [Program.tree_eq_lines, TreeRow.lines]
    exact congrArg String.join rows
  · intro located program times
    have copies := TreePrinter.printTimes_closed located "" program times
    rwa [String.empty_append] at copies

def callOrNothing : Program :=
  ⟨[.conditional [.truth true ⟨0, 4⟩] [[.call "f" [] ⟨0, 12⟩]] (some []) ⟨0, 0⟩]⟩

theorem tree_eq_rows_in_preorder_of_callOrNothing :
    callOrNothing.Everywhere Expression.Paired ∧
      (callOrNothing.outline false).addresses =
        [[], [0], [0, 0], [0, 0, 0], [0, 1], [0, 1, 0], [0, 2]] ∧
      callOrNothing.tree false = "Program\n" ++
        "└── If\n" ++
        "    ├── Condition\n" ++
        "    │   └── True\n" ++
        "    ├── Then\n" ++
        "    │   └── FunctionCall \"f\" (no arguments)\n" ++
        "    └── Else: (empty)\n" := by
  have paired : callOrNothing.Everywhere Expression.Paired := by
    refine List.forall_mem_singleton.mpr (.node rfl ?_)
    exact List.forall_mem_cons.mpr ⟨.node trivial nofun,
      List.forall_mem_singleton.mpr (.node trivial nofun)⟩
  have drawn := (tree_eq_rows_in_preorder.1 false paired).1
  exact ⟨paired, rfl, drawn.trans rfl⟩

end Shading
