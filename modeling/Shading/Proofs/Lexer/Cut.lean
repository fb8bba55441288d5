import Shading.Proofs.Lexer.Failures
import Shading.Proofs.Lexer.Tokens
import Shading.Proofs.Relocation

/-!
Texts up to where the lexer fails.

Every text is a row of lexemes and blanks up to its end, or up to what is refused: a
character, a run of operator characters or a numeral. What is refused, and why, is settled
from there on; neither what stands before it nor its place plays a part.
-/

namespace Shading

namespace Lexical

/-! ### What is refused -/

/-- A text at whose head no lexeme stands, and the error that says so. -/
inductive Refused : List Char → Fault → Prop where
  | symbol {first : Char} {later : List Char} (notBlank : Character.isBlank first = false)
      (outside : begins first = false) : Refused (first :: later) (.unexpectedSymbol first)
  | run {first : Char} {others later : List Char}
      (noMark : Token.Punctuation.ofChar? first = none)
      (inside : ∀ character ∈ first :: others, Character.isOperator character = true)
      (ends : StopsAt Character.isOperator later)
      (noOperator : operatorKind? (first :: others) = none) :
      Refused (first :: others ++ later) (.invalidOperatorRun (String.ofList (first :: others)))
  | point {first : Char} {others fraction later : List Char}
      (inside : ∀ character ∈ first :: others, Character.isDigit character = true)
      (fractionInside : ∀ character ∈ fraction, Character.isDigit character = true) :
      Refused (first :: others ++ '.' :: (fraction ++ '.' :: later)) (.unexpectedSymbol '.')

theorem operator_notBlank {character : Char} (operator : Character.isOperator character = true) :
    Character.isBlank character = false := by
  have outside : Character.operatorCharacters.all (fun other => !Character.isBlank other) := by
    decide
  have listed : character ∈ Character.operatorCharacters := List.contains_iff_mem.mp operator
  have found := List.all_eq_true.mp outside character listed
  rwa [Bool.not_eq_true'] at found

theorem digit_notOperator {character : Char} (digit : Character.isDigit character = true) :
    Character.isOperator character = false := word_notOperator (digit_isWord digit)

end Lexical

namespace TextCursor

open Lexical

theorem operatorRun_refused (place : Location) {run later : List Char}
    (inside : ∀ character ∈ run, Character.isOperator character = true)
    (ends : StopsAt Character.isOperator later) (noOperator : operatorKind? run = none) :
    (TextCursor.mk (run ++ later) place).operatorRun =
      (.error (.invalidOperatorRun (String.ofList run)), ⟨later, place.afterAll run⟩) := by
  unfold operatorRun
  rw [takeWhile_run place inside ends]
  dsimp only
  rw [noOperator]

theorem numeral_refused (place : Location) {digits fraction : List Char} (later : List Char)
    (inside : ∀ character ∈ digits, Character.isDigit character = true)
    (fractionInside : ∀ character ∈ fraction, Character.isDigit character = true) :
    ∃ second, (TextCursor.mk (digits ++ '.' :: (fraction ++ '.' :: later)) place).numeral =
      (.error second, ⟨'.' :: later, second⟩) := by
  have pointed : ∀ rest, StopsAt Character.isDigit ('.' :: rest) := by
    intro rest character head
    cases head
    decide
  unfold numeral
  rw [takeWhile_run place inside (pointed _)]
  dsimp only [next]
  rw [takeWhile_run _ fractionInside (pointed later)]
  exact ⟨_, rfl⟩

end TextCursor

namespace Lexical

theorem Refused.lexeme {text : List Char} {fault : Fault} (refused : Refused text fault) :
    ∃ first others, text = first :: others ∧ Character.isBlank first = false ∧
      ∀ place, ∃ failure behind, failure.fault = fault ∧
        (TextCursor.mk text place).lexeme first = (.error failure, behind) := by
  cases refused with
  | @symbol first later notBlank outside =>
      refine ⟨first, later, rfl, notBlank, fun place => ?_⟩
      exact ⟨_, _, rfl, TextCursor.lexeme_outside _ outside⟩
  | @run first others later noMark inside ends noOperator =>
      have operator := inside first List.mem_cons_self
      refine ⟨first, others ++ later, rfl, operator_notBlank operator, fun place => ?_⟩
      unfold TextCursor.lexeme
      rw [noMark, operator]
      dsimp only
      rw [if_pos rfl, TextCursor.operatorRun_refused place inside ends noOperator]
      exact ⟨_, _, rfl, rfl⟩
  | @point first others fraction later inside fractionInside =>
      have digit := inside first List.mem_cons_self
      refine ⟨first, _, rfl, digit_notBlank digit, fun place => ?_⟩
      obtain ⟨second, read⟩ := TextCursor.numeral_refused place later inside fractionInside
      unfold TextCursor.lexeme
      rw [word_noMark (digit_isWord digit), digit_notOperator digit, digit]
      dsimp only
      rw [if_neg Bool.false_ne_true, if_pos rfl, read]
      exact ⟨_, _, rfl, rfl⟩

end Lexical

namespace TextCursor

open Lexical

theorem token_of_refused {blanks text : List Char} {fault : Fault} (place : Location)
    (blank : OnlyBlanks blanks) (refused : Refused text fault) :
    ∃ failure behind, failure.fault = fault ∧
      (TextCursor.mk (blanks ++ text) place).token = (.error failure, behind) := by
  obtain ⟨first, others, rfl, notBlank, read⟩ := refused.lexeme
  obtain ⟨failure, behind, same, lexed⟩ := read (place.afterAll blanks)
  have ends : StopsAt Character.isBlank (first :: others) := by
    intro character head
    cases head
    exact notBlank
  refine ⟨failure, behind, same, ?_⟩
  unfold token
  rw [takeWhile_run place blank ends]
  dsimp only
  rw [lexed]
  rfl

theorem refused_of_error {cursor behind : TextCursor} {failure : SyntaxError}
    (read : cursor.token = (.error failure, behind)) :
    ∃ blanks text, OnlyBlanks blanks ∧ cursor.rest = blanks ++ text ∧
      Refused text failure.fault := by
  obtain ⟨blanks, start, blank, whole, _, fails⟩ := token_error read
  refine ⟨blanks, start.rest, blank, whole, ?_⟩
  cases fails with
  | symbol notBlank outside => exact .symbol notBlank outside
  | point inside fractionInside _ => exact .point inside fractionInside
  | @run others later first place notBlank inside ends noOperator =>
      cases marked : Token.Punctuation.ofChar? first with
      | none => exact .run marked inside ends noOperator
      | some sign =>
          -- A mark is a lexeme, whatever follows it.
          have found : Lexeme [first] (.mark sign) (others ++ later) := by
            rw [symbol_of_mark marked]
            exact .mark sign
          have token := token_of_lexeme cursor.location blank found
          rw [show blanks ++ ([first] ++ (others ++ later)) = cursor.rest from whole.symm] at token
          cases read.symm.trans token

end TextCursor

/-! ### Cuts -/

namespace Lexical

def Piece.LegalBefore (rest : List Char) : List Piece → Prop
  | [] => True
  | piece :: others =>
    Lexeme piece.run piece.kind (piece.blanks ++ (Piece.text others ++ rest)) ∧
      OnlyBlanks piece.blanks ∧ Piece.LegalBefore rest others

inductive Ending : List Char → Option Fault → Prop where
  | complete : Ending [] none
  | refused {rest : List Char} {fault : Fault} (refused : Refused rest fault) :
      Ending rest (some fault)

theorem Ending.rest_of_none {rest : List Char} (ending : Ending rest none) : rest = [] := by
  cases ending
  rfl

structure Cut (source : List Char) where
  leading : List Char
  pieces : List Piece
  rest : List Char
  fault : Option Fault
  blank : OnlyBlanks leading
  legal : Piece.LegalBefore rest pieces
  whole : leading ++ (Piece.text pieces ++ rest) = source
  ending : Ending rest fault

/-- Every text can be cut. -/
theorem exists_cut (cursor : TextCursor) : Nonempty (Cut cursor.rest) := by
  induction cursor using Lexer.lexing_induction with
  | refused cursor behind failure read =>
      obtain ⟨blanks, rest, blank, whole, refused⟩ := TextCursor.refused_of_error read
      exact ⟨⟨blanks, [], rest, _, blank, trivial, whole.symm, .refused refused⟩⟩
  | ended cursor behind read =>
      obtain ⟨blank, _⟩ := TextCursor.token_none read
      exact ⟨⟨cursor.rest, [], [], none, blank, trivial, List.append_nil _, .complete⟩⟩
  | token cursor behind found read ih =>
      obtain ⟨blanks, pieces, rest, fault, blank, legal, whole, ending⟩ := ih
      obtain ⟨leading, run, leadingBlank, lexeme, split, _⟩ := TextCursor.token_some read
      rw [← whole] at lexeme split
      refine ⟨⟨leading, ⟨run, found.kind, blanks⟩ :: pieces, rest, fault, leadingBlank,
        ⟨lexeme, blank, legal⟩, ?_, ending⟩⟩
      rw [split, Piece.text_cons]
      simp only [List.append_assoc]

def unplacedItems (kinds : List Token.Kind) (fault : Option Fault) : List TokenItem :=
  (kinds.map fun kind => ⟨kind, .origin⟩).map .ok ++
    (fault.map fun fault => ⟨.origin, fault⟩).toList.map .error

end Lexical

namespace Lexer

open Lexical

/-- Up to places, the items of a text are settled by its pieces and by what is refused. -/
theorem items_unplaced {leading rest : List Char} {pieces : List Piece} {fault : Option Fault}
    (place : Location) (blank : OnlyBlanks leading) (legal : Piece.LegalBefore rest pieces)
    (ending : Ending rest fault) :
    (Source.items (Lexer.mk ⟨leading ++ (Piece.text pieces ++ rest), place⟩ false)).map
        (relocateItem fun _ => .origin) = unplacedItems (pieces.map Piece.kind) fault := by
  induction pieces generalizing leading place with
  | nil =>
      have empty : Piece.text [] = [] := rfl
      rw [empty, List.nil_append]
      cases ending with
      | complete =>
          rw [List.append_nil, items_of_none (TextCursor.token_of_blanks place blank)]
          rfl
      | refused refused =>
          obtain ⟨failure, behind, rfl, read⟩ := TextCursor.token_of_refused place blank refused
          rw [items_of_error read]
          rfl
  | cons piece others ih =>
      obtain ⟨found, blankBehind, legalOthers⟩ := legal
      have read := TextCursor.token_of_lexeme place blank found
      have split : Piece.text (piece :: others) ++ rest =
          piece.run ++ (piece.blanks ++ (Piece.text others ++ rest)) := by
        rw [Piece.text_cons, List.append_assoc, List.append_assoc]
      rw [split, items_of_token read, List.map_cons, ih _ blankBehind legalOthers]
      rfl

end Lexer

end Shading
