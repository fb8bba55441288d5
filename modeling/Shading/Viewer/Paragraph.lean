/-!
Text as it is handed to a display.

A pane is a paragraph of styled lines, perhaps inside a border with a title. How a
display shares its area out and which cells a paragraph fills is up to the renderer,
which is given from outside.
-/

namespace Shading

/-! ### Styled text -/

/-- A colour; `standard` is whatever the display uses where nothing was chosen. -/
inductive Color where
  | standard
  | black
  | white
  | rgb (red green blue : UInt8)
deriving DecidableEq, Repr, Inhabited

/-- What a piece of text asks for; an unset colour is left to what lies below. -/
structure Style where
  foreground : Option Color
  background : Option Color
  bold : Bool
deriving DecidableEq, Repr, Inhabited

namespace Style

def plain : Style := ⟨none, none, false⟩

def colored (color : Color) : Style := ⟨some color, none, false⟩

def behind (color : Color) : Style := ⟨none, some color, false⟩

def heavy (style : Style) : Style := { style with bold := true }

def against (style : Style) (color : Color) : Style := { style with background := some color }

/-- A style laid onto another: what it sets wins, and either may ask for heavy
characters. -/
def onto (upper lower : Style) : Style :=
  ⟨upper.foreground.or lower.foreground, upper.background.or lower.background,
    upper.bold || lower.bold⟩

end Style

structure Span where
  text : List Char
  style : Style
deriving DecidableEq

def Span.ofString (text : String) (style : Style) : Span := ⟨text.toList, style⟩

/-- A line of text: its pieces, and a style that lies below all of them. -/
structure StyledLine where
  spans : List Span
  style : Style
deriving DecidableEq

def StyledLine.ofSpans (spans : List Span) : StyledLine := ⟨spans, .plain⟩

/-! ### Paragraphs -/

structure Border where
  title : String
  style : Style
deriving DecidableEq

inductive Alignment where
  | left
  | right
deriving DecidableEq, Repr

/-- Lines one below the other. The ground lies below all of them, and fills the area. -/
structure Paragraph where
  lines : List StyledLine
  border : Option Border := none
  ground : Style := .plain
  alignment : Alignment := .left
  /-- Whether lines that are too long go on below, broken between words. -/
  wrapped : Bool := false
deriving DecidableEq

/-! ### Renderers -/

structure Area where
  left : Nat
  top : Nat
  width : Nat
  height : Nat
deriving DecidableEq, Repr

inductive Direction where
  | horizontal
  | vertical
deriving DecidableEq, Repr

inductive Share where
  | atLeast (cells : Nat)
  | exactly (cells : Nat)
  | percent (part : Nat)
deriving DecidableEq, Repr

/-- A library for drawing. It shares areas out, and it draws paragraphs on a canvas. -/
structure Renderer (κ : Type) where
  blank : Area → κ
  split : Direction → (shares : List Share) → Area → Vector Area shares.length
  draw : Paragraph → Area → κ → κ

end Shading
