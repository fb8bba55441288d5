/-!
Places and lines of a text.

Lines and columns count from zero here and from one in everything a reader
sees. A column counts characters, never bytes, and control characters take no
column of their own.

A line feed ends a line, together with a carriage return right before it. What
stands behind the last line feed is a line only if it is not empty, and keeps a
carriage return at its end.
-/

namespace Shading

/-- The place of a character: how many line feeds stand before it, and how many
visible characters stand before it on its line. -/
structure Location where
  line : Nat
  column : Nat
deriving DecidableEq, Repr, Inhabited

namespace Location

def origin : Location := ⟨0, 0⟩

def shownLine (location : Location) : Nat := location.line + 1

def shownColumn (location : Location) : Nat := location.column + 1

/-- The written form: line and column as a reader counts them, with a colon between. -/
def shown (location : Location) : String :=
  toString location.shownLine ++ ":" ++ toString location.shownColumn

/-- The written form of log records, which count from zero. -/
def raw (location : Location) : String :=
  toString location.line ++ ":" ++ toString location.column

end Location

/-! ### Lines -/

namespace Text

/-- A line that a line feed ended, without the carriage return before it. -/
def endedLine (line : List Char) : List Char :=
  if line.getLast? = some '\r' then line.dropLast else line

def linesFrom (line : List Char) : List Char → List (List Char)
  | [] => if line.isEmpty then [] else [line]
  | character :: rest =>
    if character = '\n' then
      endedLine line :: linesFrom [] rest
    else
      linesFrom (line ++ [character]) rest

def lines (text : String) : List (List Char) := linesFrom [] text.toList

end Text

end Shading
