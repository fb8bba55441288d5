import Shading.Proofs.Lexer.Recognition

/-!
Texts as rows of lexemes.

Between the lexemes, before the first and behind the last there are blanks. A
text falls into blanks and lexemes in one way only: no lexeme begins with a blank,
so the blanks in front of a lexeme can be told from it, and what a lexeme is can be
told from what stands behind it.
-/

namespace Shading

namespace Lexical

structure Piece where
  run : List Char
  kind : Token.Kind
  blanks : List Char

def OnlyBlanks (text : List Char) : Prop :=
  ∀ character ∈ text, Character.isBlank character = true

instance (text : List Char) : Decidable (OnlyBlanks text) := List.decidableBAll _ text

namespace Piece

def text (pieces : List Piece) : List Char :=
  pieces.flatMap fun piece => piece.run ++ piece.blanks

def Legal : List Piece → Prop
  | [] => True
  | piece :: others =>
    Lexeme piece.run piece.kind (piece.blanks ++ text others) ∧
      OnlyBlanks piece.blanks ∧ Legal others

/-- One token for each piece; the first piece begins at a place. -/
def tokens (place : Location) : List Piece → List Token
  | [] => []
  | piece :: others =>
    ⟨piece.kind, place⟩ :: tokens ((place.afterAll piece.run).afterAll piece.blanks) others

end Piece

/-- A way to cut a text into blanks and lexemes. -/
@[ext]
structure Decomposition (source : List Char) where
  leading : List Char
  pieces : List Piece
  blank : OnlyBlanks leading
  legal : Piece.Legal pieces
  whole : leading ++ Piece.text pieces = source

/-- The tokens of the lexemes, in order, each at the place of its first character. -/
def Decomposition.tokens {source : List Char} (cut : Decomposition source) : List Token :=
  Piece.tokens (Location.origin.afterAll cut.leading) cut.pieces

/-! ### Blanks -/

theorem Piece.text_cons (piece : Piece) (others : List Piece) :
    Piece.text (piece :: others) = piece.run ++ (piece.blanks ++ Piece.text others) := by
  unfold Piece.text
  rw [List.flatMap_cons, List.append_assoc]

theorem Lexeme.notBlank {run rest : List Char} {kind : Token.Kind}
    (found : Lexeme run kind rest) : StopsAt Character.isBlank (run ++ rest) := by
  obtain ⟨first, others, rfl, notBlank, _⟩ := TextCursor.lexeme_of_grammar .origin found
  rintro character ⟨⟩
  exact notBlank

theorem Piece.Legal.notBlank {pieces : List Piece} (legal : Piece.Legal pieces) :
    StopsAt Character.isBlank (Piece.text pieces) := by
  cases pieces with
  | nil =>
      rintro character ⟨⟩
  | cons piece others =>
      rw [Piece.text_cons]
      exact legal.1.notBlank

/-! ### One way only -/

/-- A text begins with one lexeme at most. -/
theorem Lexeme.unique {run other rest behind : List Char} {kind another : Token.Kind}
    (found : Lexeme run kind rest) (same : Lexeme other another behind)
    (whole : run ++ rest = other ++ behind) : run = other ∧ kind = another ∧ rest = behind := by
  obtain ⟨first, others, begun, _, read⟩ := TextCursor.lexeme_of_grammar .origin found
  obtain ⟨head, tail, begunSame, _, readSame⟩ := TextCursor.lexeme_of_grammar .origin same
  have firstSame : first = head := by
    rw [begun, begunSame] at whole
    exact (List.cons.inj whole).1
  rw [whole, firstSame, readSame] at read
  obtain ⟨kinds, cursors⟩ := Prod.mk.inj read
  have rests : behind = rest := congrArg TextCursor.rest cursors
  subst rests
  exact ⟨List.append_cancel_right whole, (Except.ok.inj kinds).symm, rfl⟩

theorem blanks_unique {pieces others : List Piece} {leading blanks : List Char}
    (legal : Piece.Legal pieces) (legalOthers : Piece.Legal others)
    (blank : OnlyBlanks leading) (blankOthers : OnlyBlanks blanks)
    (whole : leading ++ Piece.text pieces = blanks ++ Piece.text others) :
    leading = blanks ∧ Piece.text pieces = Piece.text others := by
  have cut := takeWhile_of_stops blank legal.notBlank
  have cutOthers := takeWhile_of_stops blankOthers legalOthers.notBlank
  constructor
  · rw [← cut.1, whole, cutOthers.1]
  · rw [← cut.2, whole, cutOthers.2]

theorem Piece.text_cons_ne_nil {piece : Piece} {others : List Piece}
    (legal : Piece.Legal (piece :: others)) : Piece.text (piece :: others) ≠ [] := by
  obtain ⟨first, behind, begun, _, _⟩ := TextCursor.lexeme_of_grammar .origin legal.1
  rw [Piece.text_cons, begun]
  exact List.cons_ne_nil _ _

theorem Piece.unique {pieces others : List Piece} (legal : Piece.Legal pieces)
    (legalOthers : Piece.Legal others) (same : Piece.text pieces = Piece.text others) :
    pieces = others := by
  induction pieces generalizing others with
  | nil =>
      cases others with
      | nil => rfl
      | cons other others => exact absurd same.symm (Piece.text_cons_ne_nil legalOthers)
  | cons piece pieces ih =>
      cases others with
      | nil => exact absurd same (Piece.text_cons_ne_nil legal)
      | cons other others =>
          rw [Piece.text_cons, Piece.text_cons] at same
          obtain ⟨found, blank, legalRest⟩ := legal
          obtain ⟨foundOther, blankOther, legalOtherRest⟩ := legalOthers
          obtain ⟨runSame, kindSame, restSame⟩ := found.unique foundOther same
          obtain ⟨blanksSame, textSame⟩ :=
            blanks_unique legalRest legalOtherRest blank blankOther restSame
          have pieceSame : piece = other := by
            cases piece
            cases other
            cases runSame
            cases kindSame
            cases blanksSame
            rfl
          rw [pieceSame, ih legalRest legalOtherRest textSame]

theorem Decomposition.unique {source : List Char} (first second : Decomposition source) :
    first = second := by
  have whole := first.whole.trans second.whole.symm
  obtain ⟨leadingSame, textSame⟩ :=
    blanks_unique first.legal second.legal first.blank second.blank whole
  exact Decomposition.ext leadingSame (Piece.unique first.legal second.legal textSame)

end Lexical

end Shading
