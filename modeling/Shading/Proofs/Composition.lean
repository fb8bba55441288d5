import Shading.Proofs.Grammar.Sequencing
import Shading.Proofs.Laziness
import Shading.Proofs.Lexer.Seam

/-!
A semicolon puts one text behind the other.

If the first text is a program, the two texts with a semicolon between them are its
tree and then whatever the second text is, with the places of the second moved
behind the semicolon. So are its errors, wherever they come from.
-/

namespace Shading

open Grammar Lexical

/-- Places of a text that begins at a seam: its first line goes on with the line of
the seam, and its further lines follow that line. -/
def Location.shift (seam : Location) : Location → Location
  | ⟨0, column⟩ => ⟨seam.line, seam.column + column⟩
  | ⟨line + 1, column⟩ => ⟨seam.line + (line + 1), column⟩

theorem Location.shift_steady (seam : Location) : Location.Steady (Location.shift seam) := by
  intro place character
  obtain ⟨line, column⟩ := place
  unfold Location.after
  by_cases feed : character = '\n'
  · rw [if_pos feed, if_pos feed]
    cases line <;> rfl
  · rw [if_neg feed, if_neg feed]
    by_cases control : Character.isControl character = true
    · rw [if_pos control, if_pos control]
    · rw [if_neg control, if_neg control]
      cases line <;> rfl

theorem Lexer.relocate_shift (seam : Location) (source : String) :
    (Lexer.ofString source).relocate (Location.shift seam) =
      Lexer.mk ⟨source.toList, seam⟩ false := rfl

def placeBehind (source : String) : Location :=
  (Lexer.ofString source).tokenize.2.text.location

theorem pieces_of_parse {source : String} {program : Program}
    (parsed : parse source = .ok program) :
    ∃ leading pieces, OnlyBlanks leading ∧ Piece.Legal pieces ∧
      leading ++ Piece.text pieces = source.toList ∧
        ReadsProgram ((Piece.tokens (Location.origin.afterAll leading) pieces).map .ok)
          program.expressions := by
  have derived := Parser.program_iff.mp parsed
  have pending : (Parser.ofSource (Lexer.ofString source)).pending =
      Source.items (Lexer.ofString source) := rfl
  rw [pending] at derived
  obtain ⟨tokens, only, _⟩ := derived.takes
  rw [List.append_nil] at only
  have good : allOrError (Source.items (Lexer.ofString source)) = .ok tokens := by
    rw [only]
    exact allOrError_map_ok tokens
  obtain ⟨leading, pieces, blank, legal, whole, same⟩ := Lexer.pieces_of_items good
  refine ⟨leading, pieces, blank, legal, whole, ?_⟩
  have placed : Piece.tokens (Location.origin.afterAll leading) pieces = tokens := same
  rw [placed, ← only]
  exact derived

section Seam

variable {first : String} {leading : List Char} {pieces : List Piece}

theorem drain_sequence (blank : OnlyBlanks leading) (legal : Piece.Legal pieces)
    (whole : leading ++ Piece.text pieces = first.toList) (second : String) :
    Source.drain (Lexer.ofString (first ++ ";" ++ second)) =
      let seam := Location.origin.afterAll first.toList
      let behind := Source.drain (Lexer.mk ⟨second.toList, seam.after ';'⟩ false)
      ((Piece.tokens (Location.origin.afterAll leading) pieces).map Except.ok ++
        .ok ⟨.mark .semicolon, seam⟩ :: behind.1, behind.2) := by
  have text : (first ++ ";" ++ second).toList =
      leading ++ (Piece.text pieces ++ ';' :: second.toList) := by
    rw [String.toList_append, String.toList_append, ← whole, List.append_assoc, List.append_assoc]
    rfl
  have drained := Lexer.drain_before_semicolon .origin blank legal second.toList
  rw [whole] at drained
  rw [← drained, ← text]
  rfl

theorem placeBehind_semicolon (blank : OnlyBlanks leading) (legal : Piece.Legal pieces)
    (whole : leading ++ Piece.text pieces = first.toList) :
    placeBehind (first ++ ";") = (Location.origin.afterAll first.toList).after ';' := by
  have drained := drain_sequence blank legal whole ""
  rw [String.append_empty] at drained
  exact congrArg (fun drained => drained.2.text.location) drained

theorem items_sequence (blank : OnlyBlanks leading) (legal : Piece.Legal pieces)
    (whole : leading ++ Piece.text pieces = first.toList) (second : String) :
    Source.items (Lexer.ofString (first ++ ";" ++ second)) =
      (Piece.tokens (Location.origin.afterAll leading) pieces).map Except.ok ++
        .ok ⟨.mark .semicolon, Location.origin.afterAll first.toList⟩ ::
          (Source.items (Lexer.ofString second)).map
            (relocateItem (Location.shift (placeBehind (first ++ ";")))) := by
  have moved := Lexer.items_relocate (Location.shift_steady (placeBehind (first ++ ";")))
    (Lexer.ofString second)
  rw [← moved, Lexer.relocate_shift, placeBehind_semicolon blank legal whole]
  exact congrArg Prod.fst (drain_sequence blank legal whole second)

end Seam

/-- Two texts with a semicolon between them are a program followed by the second
text, moved behind the semicolon. -/
theorem parse_sequence {first second : String} {program : Program}
    (parsed : parse first = .ok program) :
    parse (first ++ ";" ++ second) =
      match parse second with
      | .ok following =>
        .ok ⟨program.expressions ++
          (following.relocate (Location.shift (placeBehind (first ++ ";")))).expressions⟩
      | .error failure =>
        .error (failure.relocate (Location.shift (placeBehind (first ++ ";")))) := by
  obtain ⟨leading, pieces, blank, legal, whole, derived⟩ := pieces_of_parse parsed
  have items := items_sequence blank legal whole second
  rw [Parser.parse_eq_items, Parser.parse_eq_items second, items]
  rw [Parser.program_sequence derived]
  cases (Trail.start.onto (Lookahead.ofSource [])
    (Source.items (Lexer.ofString second))).program.1 <;> rfl

/-- Behind a line with a call, the first line of what follows moves one place to the
right, and an error in it moves along. -/
theorem parse_sequence_of_callLine :
    parse "f()\n" = .ok ⟨[.call "f" [] ⟨0, 0⟩]⟩ ∧
      parse ("f()\n" ++ ";" ++ " g();\nh()") =
        .ok ⟨[.call "f" [] ⟨0, 0⟩, .call "g" [] ⟨1, 2⟩, .call "h" [] ⟨2, 0⟩]⟩ ∧
      parse ("f()\n" ++ ";" ++ " g(]") =
        .error ⟨⟨1, 4⟩, .unexpectedToken (.mark .rightBracket)⟩ := by
  have parsed : parse "f()\n" = .ok ⟨[.call "f" [] ⟨0, 0⟩]⟩ := rfl
  exact ⟨parsed, (parse_sequence parsed).trans rfl, (parse_sequence parsed).trans rfl⟩

end Shading
