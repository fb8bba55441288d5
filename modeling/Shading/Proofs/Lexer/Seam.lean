import Shading.Proofs.Lexer.Relocation

/-!
A semicolon cuts a text in two.

No lexeme goes on with a semicolon, so the lexemes before it are read as they are
at the end of the text, and behind it reading goes on as at the beginning.
-/

namespace Shading

theorem Location.afterAll_append (place : Location) (first second : List Char) :
    place.afterAll (first ++ second) = (place.afterAll first).afterAll second :=
  List.foldl_append

namespace Lexical

theorem Lexeme.before_semicolon {run rest : List Char} {kind : Token.Kind}
    (found : Lexeme run kind rest) (later : List Char) :
    Lexeme run kind (rest ++ ';' :: later) := by
  apply found.before
  intro character head
  cases rest with
  | nil =>
      cases head
      exact .inr (by decide)
  | cons next others => exact .inl head

end Lexical

namespace Lexer

open Lexical

/-- Pieces in front of a semicolon are given out as their tokens, then the semicolon,
then what a lexer gives out that begins behind it. -/
theorem drain_before_semicolon {pieces : List Piece} {leading : List Char} (place : Location)
    (blank : OnlyBlanks leading) (legal : Piece.Legal pieces) (later : List Char) :
    Source.drain (Lexer.mk ⟨leading ++ (Piece.text pieces ++ ';' :: later), place⟩ false) =
      let seam := place.afterAll (leading ++ Piece.text pieces)
      let behind := Source.drain (Lexer.mk ⟨later, seam.after ';'⟩ false)
      ((Piece.tokens (place.afterAll leading) pieces).map Except.ok ++
        .ok ⟨.mark .semicolon, seam⟩ :: behind.1, behind.2) := by
  induction pieces generalizing leading place with
  | nil =>
      have found : Lexeme [';'] (.mark .semicolon) later := .mark .semicolon
      have read := TextCursor.token_of_lexeme place blank found
      have empty : Piece.text [] = [] := rfl
      rw [empty, List.append_nil]
      exact Source.drain_of_pull_some (pull_of_token read)
  | cons piece others ih =>
      obtain ⟨found, blankBehind, legalOthers⟩ := legal
      have read := TextCursor.token_of_lexeme place blank (found.before_semicolon later)
      rw [List.append_assoc] at read
      have split : Piece.text (piece :: others) ++ ';' :: later =
          piece.run ++ (piece.blanks ++ (Piece.text others ++ ';' :: later)) := by
        rw [Piece.text_cons, List.append_assoc, List.append_assoc]
      have seam : place.afterAll (leading ++ Piece.text (piece :: others)) =
          ((place.afterAll leading).afterAll piece.run).afterAll
            (piece.blanks ++ Piece.text others) := by
        rw [Piece.text_cons, Location.afterAll_append, Location.afterAll_append]
      rw [split, Source.drain_of_pull_some (pull_of_token read), ih _ blankBehind legalOthers,
        seam]
      rfl

end Lexer

end Shading
