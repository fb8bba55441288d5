import Shading.Viewer.Pane

/-!
The bar at the bottom of the viewer: how parsing went, a message, and the keys.
-/

namespace Shading.StatusBar

def ground : Style := .behind Theme.currentLine

def badge (tokenCount : Nat) (failed : Bool) : Span :=
  if failed then
    .ofString " ERROR " ((Style.colored .black).against Theme.error).heavy
  else
    .ofString (" OK " ++ toString tokenCount ++ " tokens ")
      ((Style.colored .black).against Theme.success).heavy

def onGround (text : String) (color : Color) : Span :=
  .ofString text ((Style.colored color).against Theme.currentLine)

def statusLine (message : String) (tokenCount : Nat) (failed : Bool) : StyledLine :=
  .ofSpans
    [badge tokenCount failed,
     onGround " | " Theme.comment,
     onGround (" " ++ message ++ " ") (if failed then Theme.error else Theme.foreground)]

def key (text : String) : Span :=
  .ofString text ((Style.colored .black).against Theme.comment)

def does (text : String) : Span := onGround text Theme.foreground

def between : List Span := [onGround "│" Theme.comment, does " "]

def keyLine : StyledLine :=
  .ofSpans <|
    [key " ⇥ ", does " focus "] ++ between ++
      [key " ↑/↓ ", does " move "] ++ between ++
      [key " PgUp/PgDn ", does " page "] ++ between ++
      [key "q", does " quit "]

def verdict (message : String) (tokenCount : Nat) (failed : Bool) : Paragraph :=
  { lines := [statusLine message tokenCount failed]
    ground := ground }

def keys : Paragraph :=
  { lines := [keyLine]
    ground := ground
    alignment := .right }

end Shading.StatusBar
