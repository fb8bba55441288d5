import Shading.CommandLine.Run

/-!
The command itself: looks at the file, and prints what the run reports. It has no
terminal to show a session on.
-/

open Shading.CommandLine

namespace Shading.Main

def lookUp (path : String) : IO FileState := do
  try
    return .content (← IO.FS.readBinFile path)
  catch
    | .noFileOrDirectory .. => return .missing
    | reason => return .unreadable (toString reason)

def lookUpFor (arguments : List String) : IO FileState :=
  match Invocation.ofArguments arguments with
  | .error _ => return .missing
  | .ok invocation =>
    match invocation.task.path? with
    | none => return .missing
    | some path => lookUp path

end Shading.Main

def main (arguments : List String) : IO UInt32 := do
  let state ← Shading.Main.lookUpFor arguments
  let report := run arguments
    { program := "vixie"
      files := fun _ => state
      terminal := fun _ => ⟨"", .error "no terminal"⟩ }
  IO.print report.stdout
  for line in report.stderr do
    IO.eprintln line
  return report.code.toUInt32
