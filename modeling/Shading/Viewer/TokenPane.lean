import Shading.Token
import Shading.Viewer.Pane

/-!
The pane of the tokens.
-/

namespace Shading.TokenPane

def kindStyle : Token.Kind → Style
  | .number _ => .colored Theme.number
  | .keyword .true => .colored Theme.number
  | .keyword .false => .colored Theme.number
  | .name _ => .colored Theme.foreground
  | .keyword .uniform => .colored Theme.pipeline
  | .keyword .input => .colored Theme.pipeline
  | .keyword .varying => .colored Theme.pipeline
  | .mark .at => .colored Theme.pipeline
  | .typeName _ => .colored Theme.typeName
  | .keyword _ => .colored Theme.keyword
  | .mark _ => .colored Theme.primary
  | _ => .colored Theme.secondary

def padLeft (width : Nat) (text : String) : String :=
  String.ofList (List.replicate (width - text.length) ' ') ++ text

def padRight (width : Nat) (text : String) : String :=
  text ++ String.ofList (List.replicate (width - text.length) ' ')

def position (location : Location) : String :=
  padLeft 4 (toString location.shownLine) ++ ":" ++
    padRight 3 (toString location.shownColumn) ++ " "

def tokenLine (selected : Bool) (token : Token) : StyledLine :=
  { spans :=
      [.ofString (position token.location) (.colored Theme.comment),
       .ofString token.kind.text (kindStyle token.kind)]
    style := if selected then (Style.behind Theme.currentLine).heavy else .plain }

/-- The first token to show, so that the selected one is shown. -/
def scrolled (scroll selected height : Nat) : Nat :=
  Pane.follow scroll selected (Pane.visibleLines height)

def visible (tokens : List Token) (selected offset height : Nat) : List StyledLine :=
  ((tokens.drop offset).take (Pane.visibleLines height)).mapIdx fun row token =>
    tokenLine (offset + row == selected) token

def paragraph (tokens : List Token) (selected : Nat) (focused : Bool) (offset height : Nat) :
    Paragraph :=
  { lines := visible tokens selected offset height
    border := some ⟨" Tokens (" ++ toString tokens.length ++ ") ", Pane.borderStyle focused⟩ }

end Shading.TokenPane
