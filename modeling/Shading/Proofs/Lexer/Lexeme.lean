import Shading.Proofs.Lexer.Numeral
import Shading.Proofs.Lexer.Vocabulary

/-!
The lexical grammar.

A lexeme is a run of characters and what may stand behind it. Which lexeme stands
at the head of a text is stated without the order in which the lexer tries the
classes of characters; the lexer is proved to read exactly these lexemes.
-/

namespace Shading

namespace Lexical

def StopsAt (accepts : Char → Bool) (rest : List Char) : Prop :=
  ∀ character, rest.head? = some character → accepts character = false

def continuesNumeral (character : Char) : Bool :=
  Character.isDigit character || character == '.'

/-- A run of characters that is a lexeme of some kind in front of a rest. -/
inductive Lexeme : List Char → Token.Kind → List Char → Prop where
  | mark (sign : Token.Punctuation) {rest : List Char} : Lexeme [sign.symbol] (.mark sign) rest
  | operator {run rest : List Char} {kind : Token.Kind} (written : OperatorText run kind)
      (ends : StopsAt Character.isOperator rest) : Lexeme run kind rest
  | whole {digits rest : List Char} {value : Float} (nonempty : digits ≠ [])
      (inside : ∀ character ∈ digits, Character.isDigit character = true)
      (denoted : Number.Denotes digits [] value) (ends : StopsAt continuesNumeral rest) :
      Lexeme digits (.number value) rest
  | pointed {digits fraction rest : List Char} {value : Float} (nonempty : digits ≠ [])
      (inside : ∀ character ∈ digits, Character.isDigit character = true)
      (fractionInside : ∀ character ∈ fraction, Character.isDigit character = true)
      (denoted : Number.Denotes digits fraction value) (ends : StopsAt continuesNumeral rest) :
      Lexeme (digits ++ '.' :: fraction) (.number value) rest
  | word {first : Char} {others rest : List Char} {kind : Token.Kind}
      (written : WordText (first :: others) kind)
      (inside : ∀ character ∈ first :: others, Character.isWord character = true)
      (notDigit : Character.isDigit first = false) (notBlank : Character.isBlank first = false)
      (ends : StopsAt Character.isWord rest) : Lexeme (first :: others) kind rest

def separates (character : Char) : Bool :=
  !Character.isOperator character && !continuesNumeral character && !Character.isWord character

theorem outside_of_separates {character : Char} (separating : separates character = true) :
    Character.isOperator character = false ∧ continuesNumeral character = false ∧
      Character.isWord character = false := by
  simpa [separates, and_assoc] using separating

/-- What follows a lexeme may be exchanged for anything that begins alike, or begins with a
character that separates. -/
theorem Lexeme.before {run rest other : List Char} {kind : Token.Kind}
    (found : Lexeme run kind rest)
    (begins : ∀ character, other.head? = some character →
      rest.head? = some character ∨ separates character = true) : Lexeme run kind other := by
  have stops : ∀ {accepts : Char → Bool}, StopsAt accepts rest →
      (∀ character, separates character = true → accepts character = false) →
        StopsAt accepts other := by
    intro accepts ends outside character head
    rcases begins character head with alike | separating
    · exact ends character alike
    · exact outside character separating
  cases found with
  | mark sign => exact .mark sign
  | operator written ends =>
      exact .operator written (stops ends fun _ separating => (outside_of_separates separating).1)
  | whole nonempty inside denoted ends =>
      exact .whole nonempty inside denoted
        (stops ends fun _ separating => (outside_of_separates separating).2.1)
  | pointed nonempty inside fractionInside denoted ends =>
      exact .pointed nonempty inside fractionInside denoted
        (stops ends fun _ separating => (outside_of_separates separating).2.1)
  | word written inside notDigit notBlank ends =>
      exact .word written inside notDigit notBlank
        (stops ends fun _ separating => (outside_of_separates separating).2.2)

/-! ### Runs -/

theorem takeWhile_of_stops {accepts : Char → Bool} {run rest : List Char}
    (inside : ∀ character ∈ run, accepts character = true) (ends : StopsAt accepts rest) :
    (run ++ rest).takeWhile accepts = run ∧ (run ++ rest).dropWhile accepts = rest := by
  rw [List.takeWhile_append_of_pos inside, List.dropWhile_append_of_pos inside]
  cases rest with
  | nil => simp
  | cons next later =>
      have outside : accepts next = false := ends next rfl
      simp [outside]

theorem stops_behind_takeWhile (accepts : Char → Bool) (text : List Char) :
    StopsAt accepts (text.dropWhile accepts) := by
  intro character head
  have found := List.head?_dropWhile_not accepts text
  rw [head] at found
  exact found

end Lexical

namespace TextCursor

open Lexical

theorem takeWhile_run {accepts : Char → Bool} {run rest : List Char} (place : Location)
    (inside : ∀ character ∈ run, accepts character = true) (ends : StopsAt accepts rest) :
    (TextCursor.mk (run ++ rest) place).takeWhile accepts =
      (run, ⟨rest, place.afterAll run⟩) := by
  obtain ⟨taken, dropped⟩ := takeWhile_of_stops inside ends
  unfold takeWhile
  dsimp only
  rw [taken, dropped]

theorem takeWhile_spec {accepts : Char → Bool} {cursor behind : TextCursor} {run : List Char}
    (taken : cursor.takeWhile accepts = (run, behind)) :
    cursor.rest = run ++ behind.rest ∧ (∀ character ∈ run, accepts character = true) ∧
      StopsAt accepts behind.rest ∧ behind.location = cursor.location.afterAll run := by
  unfold takeWhile at taken
  obtain ⟨rfl, rfl⟩ := Prod.mk.inj taken
  have inside : (cursor.rest.takeWhile accepts).all accepts = true := List.all_takeWhile
  exact ⟨List.takeWhile_append_dropWhile.symm, List.all_eq_true.mp inside,
    stops_behind_takeWhile accepts cursor.rest, rfl⟩

end TextCursor

end Shading
