import Shading.Viewer.Paragraph

/-!
What the panes of the viewer share: colours, borders, and how far a window moves.
-/

namespace Shading

/-! ### Colours -/

namespace Theme

def foreground : Color := .rgb 205 214 244

def primary : Color := .rgb 137 180 250

def secondary : Color := .rgb 250 179 135

def comment : Color := .rgb 108 112 134

def success : Color := .rgb 166 227 161

def error : Color := .rgb 243 139 168

def keyword : Color := .rgb 137 180 250

def number : Color := .rgb 250 179 135

def focusedBorder : Color := .rgb 249 226 175

def plainBorder : Color := .rgb 108 112 134

def currentLine : Color := .rgb 50 50 70

def function : Color := .rgb 249 226 175

def typeName : Color := .rgb 148 226 213

def pipeline : Color := .rgb 245 194 231

end Theme

/-! ### Panes -/

namespace Pane

def borderStyle (focused : Bool) : Style :=
  if focused then (Style.colored Theme.focusedBorder).heavy else Style.colored Theme.plainBorder

/-- How many lines a pane of a height counts on: those between its borders, and
one even where there is no room. -/
def visibleLines (height : Nat) : Nat := max (height - 2) 1

/-- The least movement of a window of `height` lines that brings a line into it. -/
def follow (offset selected height : Nat) : Nat :=
  if selected < offset then
    selected
  else if offset + height ≤ selected then
    selected + 1 - height
  else
    offset

end Pane

end Shading
