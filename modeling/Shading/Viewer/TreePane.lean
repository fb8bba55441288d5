import Shading.SyntaxError
import Shading.Viewer.Pane

/-!
The pane of the syntax tree, or of the error that stands in its place.

The pane gets the rows of the tree as text and finds their parts again: guides
reach up to the first character that is no guide, and a place begins at the last
blank before an at sign.
-/

namespace Shading.TreePane

def isGuide (character : Char) : Bool :=
  [' ', '│', '├', '└', '─'].contains character

def cutAtPlace : List Char → List Char × List Char
  | [] => ([], [])
  | character :: rest =>
    let (label, place) := cutAtPlace rest
    if place.isEmpty && character == ' ' && rest.head? == some '@' then
      ([], character :: rest)
    else
      (character :: label, place)

def parts (row : List Char) : List Char × List Char × List Char :=
  (row.takeWhile isGuide, cutAtPlace (row.dropWhile isGuide))

def rowLine (row : String) : StyledLine :=
  let (guides, label, place) := parts row.toList
  .ofSpans
    [⟨guides, .colored Theme.comment⟩, ⟨label, .colored Theme.foreground⟩,
     ⟨place, .colored Theme.comment⟩]

def errorLines (failure : SyntaxError) : List StyledLine :=
  [.ofSpans [.ofString "Parse failed" (Style.colored Theme.error).heavy],
   .ofSpans [],
   .ofSpans [.ofString ("line " ++ toString failure.location.shownLine ++ ", column " ++
     toString failure.location.shownColumn) .plain],
   .ofSpans [.ofString failure.description (.colored Theme.error)]]

/-- The first row to show: some row remains in view as long as there is one. An
error does not move anything. -/
def scrolled (scroll rowCount : Nat) (failure : Option SyntaxError) : Nat :=
  if failure.isSome then scroll else min scroll (rowCount - 1)

def visible (rows : List String) (failure : Option SyntaxError) (offset height : Nat) :
    List StyledLine :=
  match failure with
  | some failure => errorLines failure
  | none => ((rows.drop offset).take (Pane.visibleLines height)).map rowLine

/-- The text of an error is wrapped, and rows are not. -/
def paragraph (rows : List String) (failure : Option SyntaxError) (focused : Bool)
    (offset height : Nat) : Paragraph :=
  { lines := visible rows failure offset height
    border := some ⟨" Syntax Tree ", Pane.borderStyle focused⟩
    wrapped := failure.isSome }

end Shading.TreePane
