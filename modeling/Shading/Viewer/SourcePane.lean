import Shading.Location
import Shading.Viewer.Highlight

/-!
The pane of the source text.

The current line stays at a target row of the pane as far as the text allows.
The line of an error is drawn on a ground of its own.
-/

namespace Shading

/-- Where the pane begins, and the row that the current line should have. The row
is chosen when the pane is first drawn. -/
structure SourceScroll where
  offset : Nat
  target : Option Nat
deriving DecidableEq, Repr

structure SourceMarks where
  current : Option Nat
  error : Option Nat

namespace SourcePane

def targetRow (target : Option Nat) (visible : Nat) : Nat :=
  min (target.getD (visible / 2)) (visible - 1)

/-- The first line to show, so that a line gets the target row unless the text
would end above the bottom of the pane or begin below its top. -/
def offsetFor (current row total visible : Nat) : Nat :=
  if visible < total then min (current - row) (total - visible) else 0

def scrolled (scroll : SourceScroll) (current : Option Nat) (total height : Nat) :
    SourceScroll :=
  let visible := Pane.visibleLines height
  let row := targetRow scroll.target visible
  match current with
  | some line =>
    if line < total then
      ⟨offsetFor line row total visible, some row⟩
    else
      ⟨scroll.offset, some row⟩
  | none => ⟨scroll.offset, some row⟩

def lineNumber (number : Nat) : List Char :=
  let digits := Nat.toDigits 10 number
  List.replicate (4 - digits.length) ' ' ++ digits ++ [' ']

def styledLine (marks : SourceMarks) (index : Nat) (line : List Char) : StyledLine :=
  let text := Highlight.spans line
  let number := lineNumber (index + 1)
  .ofSpans <|
    if marks.error = some index then
      let style := ((Style.colored .white).against Theme.error).heavy
      ⟨number, (Style.colored Theme.error).heavy⟩ :: text.map fun span => ⟨span.text, style⟩
    else if marks.current = some index then
      ⟨number, (Style.colored Theme.secondary).heavy⟩ ::
        text.map fun span => ⟨span.text, (Style.behind Theme.currentLine).onto span.style⟩
    else
      ⟨number, .colored Theme.comment⟩ :: text

def visible (marks : SourceMarks) (offset height : Nat) (lines : List (List Char)) :
    List StyledLine :=
  ((lines.drop offset).take (Pane.visibleLines height)).mapIdx fun row line =>
    styledLine marks (offset + row) line

def paragraph (lines : List (List Char)) (marks : SourceMarks) (focused : Bool)
    (offset height : Nat) : Paragraph :=
  { lines := visible marks offset height lines
    border := some ⟨" Source Code ", Pane.borderStyle focused⟩ }

end SourcePane

end Shading
