import Shading.Viewer.Session

/-!
How drawing scrolls the panes.

Where a pane scrolls to depends on what has to be in view and on where it stood before. A pane
that stands right is left where it is, so a second drawing changes nothing.
-/

namespace Shading

/-! ### Windows -/

namespace Pane

def InView (offset height line : Nat) : Prop := offset ≤ line ∧ line < offset + height

def distance (first second : Nat) : Nat := (first - second) + (second - first)

/-- A window shows a line at its new offset, and was moved there no farther than it had to be. -/
structure MovedLeast (scroll height line offset : Nat) : Prop where
  inView : InView offset height line
  least : ∀ other, InView other height line → other ≠ offset →
    distance scroll offset < distance scroll other

variable {offset selected height line : Nat}

theorem visibleLines_pos (height : Nat) : 0 < visibleLines height :=
  Nat.lt_of_lt_of_le Nat.zero_lt_one (Nat.le_max_right _ _)

theorem visibleLines_inner (room : 3 ≤ height) : visibleLines height = height - 2 := by
  unfold visibleLines
  omega

theorem follow_inView (room : 0 < height) :
    InView (follow offset selected height) height selected := by
  unfold follow InView
  split
  · omega
  · split <;> omega

theorem follow_of_inView (inView : InView offset height selected) :
    follow offset selected height = offset := by
  unfold InView at inView
  unfold follow
  rw [if_neg (by omega), if_neg (by omega)]

theorem follow_movedLeast (room : 0 < height) :
    MovedLeast offset height selected (follow offset selected height) := by
  refine ⟨follow_inView room, fun other shows different => ?_⟩
  unfold InView at shows
  unfold distance
  unfold follow at different ⊢
  by_cases above : selected < offset
  · rw [if_pos above] at different ⊢
    omega
  · rw [if_neg above] at different ⊢
    by_cases below : offset + height ≤ selected
    · rw [if_pos below] at different ⊢
      omega
    · rw [if_neg below] at different ⊢
      omega

theorem getElem?_window {α : Type} {items : List α} {item : α} (listed : items[line]? = some item)
    (inView : InView offset height line) :
    ((items.drop offset).take height)[line - offset]? = some item := by
  unfold InView at inView
  rw [List.getElem?_take_of_lt (by omega), List.getElem?_drop,
    show offset + (line - offset) = line by omega]
  exact listed

end Pane

/-! ### The tokens -/

namespace TokenPane

variable {height : Nat}

theorem scrolled_movedLeast (scroll selected : Nat) (room : 3 ≤ height) :
    Pane.MovedLeast scroll (height - 2) selected (scrolled scroll selected height) := by
  rw [← Pane.visibleLines_inner room]
  exact Pane.follow_movedLeast (Pane.visibleLines_pos height)

theorem paragraph_selected {tokens : List Token} {token : Token} {selected offset : Nat}
    (listed : tokens[selected]? = some token) (inView : Pane.InView offset (height - 2) selected)
    (room : 3 ≤ height) (focused : Bool) :
    (paragraph tokens selected focused offset height).lines[selected - offset]? =
      some (tokenLine true token) := by
  have same : (offset + (selected - offset) == selected) = true := by
    rw [Nat.add_sub_cancel' inView.1, beq_self_eq_true]
  unfold paragraph visible
  rw [Pane.visibleLines_inner room, List.getElem?_mapIdx, Pane.getElem?_window listed inView,
    Option.map_some, same]

theorem scrolled_again (scroll selected height : Nat) :
    scrolled (scrolled scroll selected height) selected height =
      scrolled scroll selected height :=
  Pane.follow_of_inView (Pane.follow_inView (Pane.visibleLines_pos height))

end TokenPane

/-! ### The source -/

namespace SourcePane

variable {line total height : Nat}

/-- The offset for a line that should have a row: it shows the line, and nothing behind the end
of a longer text. The line has its row unless an end of the text prevents it. -/
structure Placed (row line total inner offset : Nat) : Prop where
  inView : Pane.InView offset inner line
  filled : offset = 0 ∨ offset + inner ≤ total
  limited : (offset : Int) = min (max ((line : Int) - row) 0) (max ((total : Int) - inner) 0)

theorem offsetFor_eq (current row total visible : Nat) :
    offsetFor current row total visible = min (current - row) (total - visible) := by
  unfold offsetFor
  by_cases longer : visible < total
  · rw [if_pos longer]
  · rw [if_neg longer]
    omega

theorem scrolled_of_lt (scroll : SourceScroll) (within : line < total) :
    scrolled scroll (some line) total height =
      ⟨offsetFor line (targetRow scroll.target (Pane.visibleLines height)) total
          (Pane.visibleLines height),
        some (targetRow scroll.target (Pane.visibleLines height))⟩ :=
  if_pos within

theorem offsetFor_placed {row inner : Nat} (inside : row < inner) (within : line < total) :
    Placed row line total inner (offsetFor line row total inner) := by
  rw [offsetFor_eq]
  refine ⟨⟨?_, ?_⟩, ?_, ?_⟩ <;> omega

theorem targetRow_lt (target : Option Nat) (height : Nat) :
    targetRow target (Pane.visibleLines height) < Pane.visibleLines height := by
  have room := Pane.visibleLines_pos height
  unfold targetRow
  omega

theorem scrolled_placed (scroll : SourceScroll) (within : line < total) (room : 3 ≤ height) :
    (scrolled scroll (some line) total height).target =
        some (targetRow scroll.target (height - 2)) ∧
      Placed (targetRow scroll.target (height - 2)) line total (height - 2)
        (scrolled scroll (some line) total height).offset := by
  rw [scrolled_of_lt scroll within, ← Pane.visibleLines_inner room]
  exact ⟨rfl, offsetFor_placed (targetRow_lt scroll.target height) within⟩

theorem paragraph_current {lines : List (List Char)} {text : List Char} {offset : Nat}
    (marks : SourceMarks) (listed : lines[line]? = some text)
    (inView : Pane.InView offset (height - 2) line) (room : 3 ≤ height) (focused : Bool) :
    (paragraph lines marks focused offset height).lines[line - offset]? =
      some (styledLine marks line text) := by
  unfold paragraph visible
  rw [Pane.visibleLines_inner room, List.getElem?_mapIdx, Pane.getElem?_window listed inView,
    Option.map_some, Nat.add_sub_cancel' inView.1]

theorem targetRow_again (target : Option Nat) (visible : Nat) :
    targetRow (some (targetRow target visible)) visible = targetRow target visible := by
  unfold targetRow
  rw [Option.getD_some]
  omega

theorem scrolled_again (scroll : SourceScroll) (current : Option Nat) (total height : Nat) :
    scrolled (scrolled scroll current total height) current total height =
      scrolled scroll current total height := by
  unfold scrolled
  cases current with
  | none =>
      dsimp only
      rw [targetRow_again]
  | some line =>
      dsimp only
      by_cases within : line < total
      · rw [if_pos within, if_pos within, targetRow_again]
      · rw [if_neg within, if_neg within, targetRow_again]

end SourcePane

/-! ### The tree -/

namespace TreePane

variable {height : Nat}

theorem scrolled_again (scroll rowCount : Nat) (failure : Option SyntaxError) :
    scrolled (scrolled scroll rowCount failure) rowCount failure =
      scrolled scroll rowCount failure := by
  unfold scrolled
  by_cases failed : failure.isSome = true
  · rw [if_pos failed]
  · rw [if_neg failed, if_neg failed]
    omega

theorem paragraph_top {rows : List String} (nonempty : rows ≠ []) (room : 3 ≤ height)
    (scroll : Nat) (focused : Bool) :
    ∃ row, rows[scrolled scroll rows.length none]? = some row ∧
      (paragraph rows none focused (scrolled scroll rows.length none) height).lines[0]? =
        some (rowLine row) := by
  have some : 0 < rows.length := List.length_pos_iff.mpr nonempty
  have within : scrolled scroll rows.length none < rows.length := by
    change min scroll (rows.length - 1) < rows.length
    omega
  generalize scrolled scroll rows.length none = offset at within ⊢
  have listed : rows[offset]? = _ := List.getElem?_eq_getElem within
  have inView : Pane.InView offset (height - 2) offset := ⟨Nat.le_refl _, by omega⟩
  have shown := Pane.getElem?_window listed inView
  rw [Nat.sub_self] at shown
  refine ⟨rows[offset], listed, ?_⟩
  change (((rows.drop offset).take (Pane.visibleLines height)).map rowLine)[0]? = _
  rw [Pane.visibleLines_inner room, List.getElem?_map, shown]
  rfl

end TreePane

/-! ### Sessions -/

namespace Session

theorem scrolled_again (session : Session) (division : Division) :
    (session.scrolled division).scrolled division = session.scrolled division := by
  have source := SourcePane.scrolled_again session.sourceScroll session.currentLine?
    (Text.lines session.source).length division.source.height
  have tokens := TokenPane.scrolled_again session.tokenScroll session.selected
    division.tokens.height
  have tree := TreePane.scrolled_again session.treeScroll session.rows.length session.failure?
  change { session with
    sourceScroll := SourcePane.scrolled (session.scrolled division).sourceScroll
      session.currentLine? (Text.lines session.source).length division.source.height
    tokenScroll := TokenPane.scrolled (session.scrolled division).tokenScroll
      session.selected division.tokens.height
    treeScroll := TreePane.scrolled (session.scrolled division).treeScroll
      session.rows.length session.failure? } = _
  unfold scrolled
  dsimp only
  rw [source, tokens, tree]

theorem draw_again {κ : Type} (renderer : Renderer κ) (session : Session) (area : Area) :
    (session.draw renderer area).1.draw renderer area = session.draw renderer area := by
  unfold draw
  dsimp only
  rw [scrolled_again]

/-- What a session shows in panes with room inside their borders, once it was drawn: the selected
token, to which the window moved no farther than it had to; the line to keep in view; and of a
tree a row. -/
structure Shows (before after : Session) (division : Division) : Prop where
  tokens : 3 ≤ division.tokens.height → ∀ token : Token,
    before.tokens[before.selected]? = some token →
      Pane.MovedLeast before.tokenScroll (division.tokens.height - 2) before.selected
          after.tokenScroll ∧
        (after.tokenParagraph division.tokens.height).lines[before.selected -
          after.tokenScroll]? = some (TokenPane.tokenLine true token)
  source : 3 ≤ division.source.height → ∀ (line : Nat) (text : List Char),
    before.currentLine? = some line → (Text.lines before.source)[line]? = some text →
      SourcePane.Placed
          (SourcePane.targetRow before.sourceScroll.target (division.source.height - 2)) line
          (Text.lines before.source).length (division.source.height - 2)
          after.sourceScroll.offset ∧
        (after.sourceParagraph division.source.height).lines[line - after.sourceScroll.offset]? =
          some (SourcePane.styledLine ⟨before.currentLine?, before.errorLine?⟩ line text)
  tree : 3 ≤ division.tree.height → before.failure? = none → before.rows ≠ [] →
    ∃ row, before.rows[after.treeScroll]? = some row ∧
      (after.treeParagraph division.tree.height).lines[0]? = some (TreePane.rowLine row)

theorem scrolled_shows (session : Session) (division : Division) :
    session.Shows (session.scrolled division) division where
  tokens := by
    intro room token listed
    have moved := TokenPane.scrolled_movedLeast session.tokenScroll session.selected room
    exact ⟨moved, TokenPane.paragraph_selected listed moved.inView room _⟩
  source := by
    intro room line text current listed
    have within := (List.getElem?_eq_some_iff.mp listed).1
    have placed := (SourcePane.scrolled_placed session.sourceScroll within room).2
    rw [← current] at placed
    exact ⟨placed, SourcePane.paragraph_current _ listed placed.inView room _⟩
  tree := by
    intro room fine nonempty
    have top := TreePane.paragraph_top nonempty room session.treeScroll (session.focus = .tree)
    rw [← fine] at top
    exact top

end Session

/-- In panes with room inside their borders: the selected token has a line, and the window moved no
farther than that needs; the line to keep in view has its place, at the row wanted for it as far as
the pane and the ends of the text allow; of a tree a row is shown. Whatever draws the panes, and
whatever the session and the area: the panes are scrolled so, and drawing once more changes neither
the session nor what is drawn. -/
theorem drawing_steady :
    (∀ height, 3 ≤ height →
      (∀ scroll tokens selected (token : Token) focused, tokens[selected]? = some token →
        let offset := TokenPane.scrolled scroll selected height
        Pane.MovedLeast scroll (height - 2) selected offset ∧
          (TokenPane.paragraph tokens selected focused offset height).lines[selected - offset]? =
            some (TokenPane.tokenLine true token)) ∧
      (∀ (scroll : SourceScroll) lines current text marks focused,
        lines[current]? = some text →
        let row := min (scroll.target.getD ((height - 2) / 2)) (height - 2 - 1)
        let after := SourcePane.scrolled scroll (some current) lines.length height
        after.target = some row ∧
          SourcePane.Placed row current lines.length (height - 2) after.offset ∧
            (SourcePane.paragraph lines marks focused after.offset height).lines[current -
              after.offset]? = some (SourcePane.styledLine marks current text)) ∧
      ∀ scroll rows focused, rows ≠ [] →
        let offset := TreePane.scrolled scroll rows.length none
        ∃ row, rows[offset]? = some row ∧
          (TreePane.paragraph rows none focused offset height).lines[0]? =
            some (TreePane.rowLine row)) ∧
    ∀ {κ : Type} (renderer : Renderer κ) (session : Session) (area : Area),
      let division := Session.division renderer area
      let (after, canvas) := session.draw renderer area
      after.tokenScroll =
          TokenPane.scrolled session.tokenScroll session.selected division.tokens.height ∧
        after.sourceScroll = SourcePane.scrolled session.sourceScroll session.currentLine?
          (Text.lines session.source).length division.source.height ∧
        after.treeScroll =
          TreePane.scrolled session.treeScroll session.rows.length session.failure? ∧
        session.Shows after division ∧
        after.draw renderer area = (after, canvas) := by
  refine ⟨fun height room => ⟨?_, ?_, ?_⟩, fun renderer session area =>
    ⟨rfl, rfl, rfl, session.scrolled_shows _, session.draw_again renderer area⟩⟩
  · intro scroll tokens selected token focused listed
    have moved := TokenPane.scrolled_movedLeast scroll selected room
    exact ⟨moved, TokenPane.paragraph_selected listed moved.inView room focused⟩
  · intro scroll lines current text marks focused listed
    have placed := SourcePane.scrolled_placed scroll (List.getElem?_eq_some_iff.mp listed).1 room
    exact ⟨placed.1, placed.2, SourcePane.paragraph_current marks listed placed.2.inView room _⟩
  · intro scroll rows focused nonempty
    exact TreePane.paragraph_top nonempty room scroll focused

def Share.fixed : Share → Nat
  | .exactly cells => cells
  | _ => 0

/-- The cells that a share of an area gets where it need not be rounded: what is asked for, and
for the one that asks for no number what the others leave. -/
def Share.cells (whole : Nat) (shares : List Share) : Share → Nat
  | .exactly cells => cells
  | .percent part => whole * part / 100
  | .atLeast cells => max cells (shares.foldl (fun left share => left - share.fixed) whole)

/-- A display that keeps a list of the paragraphs it was given, and where. -/
def Renderer.listing : Renderer (List (Paragraph × Area)) where
  blank _ := []
  split
    | .vertical, shares, area =>
      let sizes := shares.map (Share.cells area.height shares)
      .ofFn fun index =>
        { area with
          top := (sizes.take index).foldl (· + ·) area.top
          height := sizes[index]?.getD 0 }
    | .horizontal, shares, area =>
      let sizes := shares.map (Share.cells area.width shares)
      .ofFn fun index =>
        { area with
          left := (sizes.take index).foldl (· + ·) area.left
          width := sizes[index]?.getD 0 }
  draw paragraph area drawn := drawn ++ [(paragraph, area)]

def lastSemicolon : Session := ((Session.ofSource ";;;;;;").press .tab).press .last

/-- Three rows inside borders: for six tokens of which the fifth is selected, for nine lines that
were not drawn before, and for the six tokens of a session. -/
theorem drawing_steady_of_threeRows :
    (3 ≤ 5 ∧ (List.replicate 6 (⟨.assign, ⟨0, 0⟩⟩ : Token))[4]? = some ⟨.assign, ⟨0, 0⟩⟩ ∧
      (List.replicate 9 ['x'])[5]? = some ['x'] ∧ ["Program"] ≠ []) ∧
    Pane.MovedLeast 0 3 4 2 ∧ SourcePane.Placed 1 5 9 3 4 ∧
      (TreePane.paragraph ["Program"] none false 0 5).lines[0]? =
        some (TreePane.rowLine "Program") ∧
    let (after, drawn) := lastSemicolon.draw .listing ⟨0, 0, 100, 6⟩
    after.tokenScroll = 3 ∧ drawn.map Prod.snd =
        [⟨0, 0, 45, 5⟩, ⟨45, 0, 20, 5⟩, ⟨65, 0, 35, 5⟩, ⟨0, 5, 60, 1⟩, ⟨60, 5, 40, 1⟩] ∧
      (after.tokenParagraph 5).lines[2]? =
        some (TokenPane.tokenLine true ⟨.mark .semicolon, ⟨0, 5⟩⟩) ∧
      after.draw .listing ⟨0, 0, 100, 6⟩ = (after, drawn) := by
  obtain ⟨tokens, source, tree⟩ := drawing_steady.1 5 (by decide)
  have selected := (tokens 0 (List.replicate 6 ⟨.assign, ⟨0, 0⟩⟩) 4 _ false rfl).1
  have placed := (source ⟨0, none⟩ (List.replicate 9 ['x']) 5 _ ⟨none, none⟩ false rfl).2.1
  obtain ⟨row, listed, top⟩ := tree 7 ["Program"] false (List.cons_ne_nil _ _)
  obtain ⟨scrolled, _, _, shows, again⟩ :=
    drawing_steady.2 .listing lastSemicolon ⟨0, 0, 100, 6⟩
  have shown := (shows.tokens (by decide) ⟨.mark .semicolon, ⟨0, 5⟩⟩ rfl).2
  refine ⟨⟨by decide, rfl, rfl, List.cons_ne_nil _ _⟩, selected, placed, ?_, scrolled.trans rfl,
    rfl, shown, again⟩
  cases listed
  exact top

end Shading
