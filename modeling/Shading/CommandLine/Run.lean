import Shading.CommandLine.Options
import Shading.Log
import Shading.Viewer.Session

/-!
What the command prints and how it ends.

The command reads at most one file. Everything else about a run follows from its
arguments and from what is found around it: the name it was called by, what that
file holds, and what comes of showing a session on a terminal.
-/

namespace Shading.CommandLine

inductive FileState where
  | missing
  /-- There is something of that name, but reading it fails for a reason. -/
  | unreadable (reason : String)
  | content (bytes : ByteArray)

/-- What comes of showing a session: what was written to the screen, and what went
wrong. A terminal that cannot be set up or put back is told apart from one that
fails while the session is shown. -/
structure Showing where
  screen : String
  ending : Except String (Option String)

/-- What a run finds around it. The terminal gets a session when it is prepared. -/
structure Surroundings where
  program : String
  files : String → FileState
  terminal : Session → Showing

/-- The visible effects of a run. -/
structure Report where
  code : Nat
  stdout : String
  stderr : List String
deriving DecidableEq, Repr

def usageCode : Nat := 1

def syntaxCode : Nat := 2

def terminalCode : Nat := 1

def linesText (lines : List String) : String :=
  String.join (lines.map (· ++ "\n"))

def errorLine (reason : String) : String := "Error: " ++ reason

/-! ### The tasks on a readable file -/

def reportTokens (threshold : Log.Level) (source : String) : Report :=
  let (items, records) := Log.lexing source
  let (tokens, failure) := untilError items
  { code := if failure.isSome then syntaxCode else 0
    stdout := linesText (tokens.map Token.text)
    stderr := Log.written threshold records ++ (failure.map SyntaxError.message).toList }

def reportTree (threshold : Log.Level) (source : String) : Report :=
  let (outcome, records) := Log.parsing source
  match outcome with
  | .ok program => ⟨0, program.tree true, Log.written threshold records⟩
  | .error failure => ⟨syntaxCode, "", Log.written threshold records ++ [failure.message]⟩

def viewerWarnings (session : Session) : List Log.Record :=
  (session.failure?.map fun failure => ⟨.warn, .command, failure.message⟩).toList

/-- Prepare the viewer, which lexes the whole text for its token list and then
parses it, and show it on a terminal. -/
def reportView (terminal : Session → Showing) (threshold : Log.Level) (source : String) :
    Report :=
  let session := Session.ofSource source
  let records := (Log.lexing source).2 ++ (Log.parsing source).2 ++ viewerWarnings session
  let showing := terminal session
  match showing.ending with
  | .error reason =>
    ⟨terminalCode, showing.screen, Log.written threshold records ++ [errorLine reason]⟩
  | .ok failure =>
    ⟨0, showing.screen, Log.written threshold records ++ (failure.map errorLine).toList⟩

def readRecord (bytes : Nat) (path : String) : Log.Record :=
  ⟨.debug, .command, "read " ++ toString bytes ++ " bytes from " ++ path⟩

/-! ### Files -/

def unreadable (reason : String) : Report := ⟨usageCode, "", [errorLine reason]⟩

def withText (threshold : Log.Level) (path : String) (state : FileState)
    (report : Log.Level → String → Report) : Report :=
  match state with
  | .missing => unreadable ("File '" ++ path ++ "' not found")
  | .unreadable reason => unreadable reason
  | .content bytes =>
    match String.fromUTF8? bytes with
    | none => unreadable "stream did not contain valid UTF-8"
    | some source =>
      let done := report threshold source
      { done with
        stderr := Log.written threshold [readRecord bytes.size path] ++ done.stderr }

/-! ### Whole runs -/

def Task.path? : Task → Option String
  | help => none
  | tokens path => some path
  | dump path => some path
  | view path => some path

def Invocation.report (invocation : Invocation) (around : Surroundings) : Report :=
  let threshold := Log.Level.ofVerbosity invocation.verbosity
  match invocation.task with
  | .help => ⟨0, linesText (usageLines around.program), []⟩
  | .tokens path => withText threshold path (around.files path) reportTokens
  | .dump path => withText threshold path (around.files path) reportTree
  | .view path => withText threshold path (around.files path) (reportView around.terminal)

def run (arguments : List String) (around : Surroundings) : Report :=
  match Invocation.ofArguments arguments with
  | .error failure =>
    ⟨usageCode, "", errorLine failure.message :: usageLines around.program⟩
  | .ok invocation => invocation.report around

end Shading.CommandLine
