import Shading.Parser
import Shading.Tree.Printer
import Shading.Viewer.SourcePane
import Shading.Viewer.StatusBar
import Shading.Viewer.TokenPane
import Shading.Viewer.TreePane

/-!
A session of the viewer.

A session holds what was found out about a source text, which never changes, and
what keys and drawing change: the focus, the selected token, and how far each
pane is scrolled.
-/

namespace Shading

inductive Focus where
  | source
  | tokens
  | tree
deriving DecidableEq, Repr, Inhabited

def Focus.following : Focus → Focus
  | source => tokens
  | tokens => tree
  | tree => source

def Focus.preceding : Focus → Focus
  | source => tree
  | tokens => source
  | tree => tokens

/-- The keys that a session knows; `other` stands for every key without a meaning. -/
inductive Key where
  | tab
  | backTab
  | up
  | down
  | pageUp
  | pageDown
  | home
  | last
  | escape
  | character (character : Char)
  | other
deriving DecidableEq, Repr

structure Session where
  source : String
  tokens : List Token
  outcome : Except SyntaxError Program
  rows : List String
  focus : Focus
  selected : Nat
  sourceScroll : SourceScroll
  tokenScroll : Nat
  treeScroll : Nat
  quit : Bool
  status : String

namespace Session

/-! ### Beginning -/

def rowsOf : Except SyntaxError Program → List String
  | .ok program => (Text.lines (program.tree true)).map String.ofList
  | .error _ => []

def firstStatus (outcome : Except SyntaxError Program) (tokenCount : Nat) : String :=
  match outcome with
  | .ok program =>
    "Parsed " ++ toString program.expressions.length ++ " top-level expression(s) from " ++
      toString tokenCount ++ " token(s)"
  | .error failure => failure.message

def ofSource (source : String) : Session :=
  let tokens := (tokensUntilError source).1
  let outcome := parse source
  { source := source
    tokens := tokens
    outcome := outcome
    rows := rowsOf outcome
    focus := .source
    selected := 0
    sourceScroll := ⟨0, none⟩
    tokenScroll := 0
    treeScroll := 0
    quit := false
    status := firstStatus outcome tokens.length }

def failure? (session : Session) : Option SyntaxError :=
  match session.outcome with
  | .ok _ => none
  | .error failure => some failure

/-- The line to keep in view: that of the selected token, or else of the error. -/
def currentLine? (session : Session) : Option Nat :=
  match session.tokens[session.selected]? with
  | some token => some token.location.line
  | none => session.failure?.map fun failure => failure.location.line

def errorLine? (session : Session) : Option Nat :=
  session.failure?.map fun failure => failure.location.line

/-! ### Keys -/

/-- Select the token at an index, or the last one if there are fewer. Without
tokens nothing happens. -/
def select (session : Session) (index : Nat) : Session :=
  let chosen := min index (session.tokens.length - 1)
  match session.tokens[chosen]? with
  | none => session
  | some token =>
    { session with
      selected := chosen
      status := "Token " ++ toString (chosen + 1) ++ "/" ++ toString session.tokens.length ++
        ": " ++ token.text }

def moveTarget (session : Session) (move : Nat → Nat) : Session :=
  { session with
    sourceScroll := { session.sourceScroll with target := session.sourceScroll.target.map move } }

/-- Move up in the pane in focus. Moving up in the source lets the current line
sink. -/
def moveUp (session : Session) (steps : Nat) : Session :=
  match session.focus with
  | .source => session.moveTarget (· + steps)
  | .tokens => session.select (session.selected - steps)
  | .tree => { session with treeScroll := session.treeScroll - steps }

def moveDown (session : Session) (steps : Nat) : Session :=
  match session.focus with
  | .source => session.moveTarget (· - steps)
  | .tokens => session.select (session.selected + steps)
  | .tree =>
    { session with treeScroll := min (session.treeScroll + steps) (session.rows.length - 1) }

def pageSteps : Nat := 10

def press (session : Session) (key : Key) : Session :=
  match key with
  | .character 'q' => { session with quit := true }
  | .character 'Q' => { session with quit := true }
  | .escape => { session with quit := true }
  | .tab => { session with focus := session.focus.following }
  | .backTab => { session with focus := session.focus.preceding }
  | .up => session.moveUp 1
  | .down => session.moveDown 1
  | .pageUp => session.moveUp pageSteps
  | .pageDown => session.moveDown pageSteps
  | .home => if session.focus = .tokens then session.select 0 else session
  | .last =>
    if session.focus = .tokens then session.select (session.tokens.length - 1) else session
  | _ => session

/-! ### Drawing -/

structure Division where
  source : Area
  tokens : Area
  tree : Area
  verdict : Area
  keys : Area

/-- The last row is the status bar, and the panes share the rest. -/
def division {κ : Type} (renderer : Renderer κ) (area : Area) : Division :=
  let rows := renderer.split .vertical [.atLeast 0, .exactly 1] area
  let columns := renderer.split .horizontal [.percent 45, .percent 20, .percent 35] rows[0]
  let halves := renderer.split .horizontal [.percent 60, .percent 40] rows[1]
  ⟨columns[0], columns[1], columns[2], halves[0], halves[1]⟩

/-- The session after drawing its panes: they have scrolled to what has to be in view. -/
def scrolled (session : Session) (division : Division) : Session :=
  { session with
    sourceScroll := SourcePane.scrolled session.sourceScroll session.currentLine?
      (Text.lines session.source).length division.source.height
    tokenScroll := TokenPane.scrolled session.tokenScroll session.selected division.tokens.height
    treeScroll := TreePane.scrolled session.treeScroll session.rows.length session.failure? }

def sourceParagraph (session : Session) (height : Nat) : Paragraph :=
  SourcePane.paragraph (Text.lines session.source) ⟨session.currentLine?, session.errorLine?⟩
    (session.focus = .source) session.sourceScroll.offset height

def tokenParagraph (session : Session) (height : Nat) : Paragraph :=
  TokenPane.paragraph session.tokens session.selected (session.focus = .tokens)
    session.tokenScroll height

def treeParagraph (session : Session) (height : Nat) : Paragraph :=
  TreePane.paragraph session.rows session.failure? (session.focus = .tree) session.treeScroll
    height

/-- Everything that is drawn of a session, where its scrolling has brought it. -/
def paragraphs (session : Session) (division : Division) : List (Paragraph × Area) :=
  [(session.sourceParagraph division.source.height, division.source),
   (session.tokenParagraph division.tokens.height, division.tokens),
   (session.treeParagraph division.tree.height, division.tree),
   (StatusBar.verdict session.status session.tokens.length session.failure?.isSome,
     division.verdict),
   (StatusBar.keys, division.keys)]

def draw {κ : Type} (renderer : Renderer κ) (session : Session) (area : Area) : Session × κ :=
  let division := division renderer area
  let session := session.scrolled division
  let canvas := (session.paragraphs division).foldl
    (fun canvas (paragraph, area) => renderer.draw paragraph area canvas) (renderer.blank area)
  (session, canvas)

end Session

end Shading
