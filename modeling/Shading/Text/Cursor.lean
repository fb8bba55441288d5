import Shading.Cursor
import Shading.Location
import Shading.Text.Character

/-!
A place in a text and the characters from there on.
-/

namespace Shading

/-- The place behind a character: a line feed starts a line, a control character
moves nothing, and any other character takes one column. -/
def Location.after (location : Location) (character : Char) : Location :=
  if character = '\n' then
    ⟨location.line + 1, 0⟩
  else if Character.isControl character then
    location
  else
    ⟨location.line, location.column + 1⟩

def Location.afterAll (location : Location) (characters : List Char) : Location :=
  characters.foldl Location.after location

/-- The unread part of a text and the place where it begins. -/
structure TextCursor where
  rest : List Char
  location : Location

namespace TextCursor

def ofString (text : String) : TextCursor := ⟨text.toList, Location.origin⟩

def next (cursor : TextCursor) : Option Char × TextCursor :=
  match cursor.rest with
  | [] => (none, cursor)
  | character :: rest => (some character, ⟨rest, cursor.location.after character⟩)

def takeWhile (cursor : TextCursor) (accepts : Char → Bool) : List Char × TextCursor :=
  let run := cursor.rest.takeWhile accepts
  (run, ⟨cursor.rest.dropWhile accepts, cursor.location.afterAll run⟩)

instance : Cursor TextCursor Char where
  peek cursor := (cursor.rest.head?, cursor)
  next := next
  remaining cursor := cursor.rest.length

end TextCursor

end Shading
