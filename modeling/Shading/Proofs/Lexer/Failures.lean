import Shading.Proofs.Lexer.Decomposition

/-!
Where the lexer fails.

There are three ways to fail, and they leave the text in different places: in front of a
character that begins no lexeme, behind a whole run of operator characters that is no
operator, and in front of the second point of a numeral.
-/

namespace Shading

namespace Lexical

def begins (character : Char) : Bool :=
  (Token.Punctuation.ofChar? character).isSome || Character.isOperator character ||
    Character.isDigit character || Character.isWord character

end Lexical

namespace TextCursor

open Lexical

inductive Fails : TextCursor → SyntaxError → TextCursor → Prop where
  | symbol {rest : List Char} {first : Char} {place : Location}
      (notBlank : Character.isBlank first = false) (outside : begins first = false) :
      Fails ⟨first :: rest, place⟩ ⟨place, .unexpectedSymbol first⟩ ⟨first :: rest, place⟩
  | run {others rest : List Char} {first : Char} {place : Location}
      (notBlank : Character.isBlank first = false)
      (inside : ∀ character ∈ first :: others, Character.isOperator character = true)
      (ends : StopsAt Character.isOperator rest)
      (noOperator : operatorKind? (first :: others) = none) :
      Fails ⟨first :: others ++ rest, place⟩
        ⟨place, .invalidOperatorRun (String.ofList (first :: others))⟩
        ⟨rest, place.afterAll (first :: others)⟩
  | point {others fraction later : List Char} {first : Char} {start place : Location}
      (inside : ∀ character ∈ first :: others, Character.isDigit character = true)
      (fractionInside : ∀ character ∈ fraction, Character.isDigit character = true)
      (placed : place = start.afterAll (first :: others ++ '.' :: fraction)) :
      Fails ⟨first :: others ++ '.' :: (fraction ++ '.' :: later), start⟩
        ⟨place, .unexpectedSymbol '.'⟩ ⟨'.' :: later, place⟩

variable {cursor behind : TextCursor}

/-! ### Lexemes that fail -/

theorem fails_of_operatorRun {fault : Fault} {first : Char} {others : List Char}
    (begun : cursor.rest = first :: others) (notBlank : Character.isBlank first = false)
    (operator : Character.isOperator first = true)
    (read : cursor.operatorRun = (.error fault, behind)) :
    cursor.Fails ⟨cursor.location, fault⟩ behind := by
  unfold operatorRun at read
  cases taken : cursor.takeWhile Character.isOperator with
  | mk run stopped =>
  obtain ⟨whole, inside, ends, moved⟩ := takeWhile_spec taken
  rw [taken] at read
  dsimp only at read
  split at read
  · cases read
  · rename_i unknown
    cases read
    have nonempty := run_nonempty ends (begun.symm.trans whole) operator
    obtain ⟨head, tail, rfl⟩ := List.exists_cons_of_ne_nil nonempty
    have same : first = head := (List.cons.inj (begun.symm.trans whole)).1
    subst same
    obtain ⟨text, place⟩ := cursor
    obtain ⟨left, leftPlace⟩ := behind
    dsimp only at whole moved ends
    subst whole moved
    exact .run notBlank inside ends unknown

theorem fails_of_numeral {place : Location} {first : Char} {others : List Char}
    (begun : cursor.rest = first :: others) (digit : Character.isDigit first = true)
    (read : cursor.numeral = (.error place, behind)) :
    cursor.Fails ⟨place, .unexpectedSymbol '.'⟩ behind := by
  unfold numeral at read
  cases taken : cursor.takeWhile Character.isDigit with
  | mk digits middle =>
  obtain ⟨whole, inside, ends, moved⟩ := takeWhile_spec taken
  have nonempty := run_nonempty ends (begun.symm.trans whole) digit
  obtain ⟨head, tail, rfl⟩ := List.exists_cons_of_ne_nil nonempty
  have same : first = head := (List.cons.inj (begun.symm.trans whole)).1
  subst same
  rw [taken] at read
  dsimp only at read
  split at read
  · rename_i middleRest pointed
    cases fractionTaken : middle.next.2.takeWhile Character.isDigit with
    | mk fraction stopped =>
    obtain ⟨fractionWhole, fractionInside, _, fractionMoved⟩ := takeWhile_spec fractionTaken
    have stepped : middle.next.2 = ⟨middleRest, middle.location.after '.'⟩ := by
      unfold next
      rw [pointed]
    rw [fractionTaken] at read
    dsimp only at read
    split at read
    · rename_i later second
      cases read
      rw [stepped, second] at fractionWhole
      rw [stepped, moved] at fractionMoved
      rw [pointed, show middleRest = _ from fractionWhole] at whole
      have placed : behind.location =
          cursor.location.afterAll (first :: tail ++ '.' :: fraction) := by
        rw [fractionMoved]
        unfold Location.afterAll
        rw [List.foldl_append]
        rfl
      obtain ⟨text, start⟩ := cursor
      obtain ⟨left, leftPlace⟩ := behind
      dsimp only at whole second
      subst whole second
      exact .point inside fractionInside placed
    · cases read
  · cases read

theorem lexeme_error {first : Char} {others : List Char} {failure : SyntaxError}
    (begun : cursor.rest = first :: others) (notBlank : Character.isBlank first = false)
    (read : cursor.lexeme first = (.error failure, behind)) : cursor.Fails failure behind := by
  unfold lexeme at read
  cases marked : Token.Punctuation.ofChar? first with
  | some sign =>
      rw [marked] at read
      cases read
  | none =>
  rw [marked] at read
  dsimp only at read
  by_cases operator : Character.isOperator first = true
  · rw [if_pos operator] at read
    rcases ran : cursor.operatorRun with ⟨fault | kind, stopped⟩
    · rw [ran] at read
      cases read
      exact fails_of_operatorRun begun notBlank operator ran
    · rw [ran] at read
      cases read
  rw [if_neg operator] at read
  by_cases digit : Character.isDigit first = true
  · rw [if_pos digit] at read
    rcases ran : cursor.numeral with ⟨second | value, stopped⟩
    · rw [ran] at read
      cases read
      exact fails_of_numeral begun digit ran
    · rw [ran] at read
      cases read
  rw [if_neg digit] at read
  by_cases word : Character.isWord first = true
  · rw [if_pos word] at read
    cases read
  · rw [if_neg word] at read
    cases read
    have outside : begins first = false := by
      unfold begins
      rw [marked, Bool.eq_false_iff.mpr operator, Bool.eq_false_iff.mpr digit,
        Bool.eq_false_iff.mpr word]
      rfl
    obtain ⟨text, place⟩ := cursor
    dsimp only at begun
    subst begun
    exact .symbol notBlank outside

theorem token_error {failure : SyntaxError} (read : cursor.token = (.error failure, behind)) :
    ∃ (blanks : List Char) (start : TextCursor), OnlyBlanks blanks ∧
      cursor.rest = blanks ++ start.rest ∧
        start.location = cursor.location.afterAll blanks ∧ start.Fails failure behind := by
  unfold token at read
  cases taken : cursor.takeWhile Character.isBlank with
  | mk blanks start =>
  obtain ⟨whole, blank, ends, moved⟩ := takeWhile_spec taken
  rw [taken] at read
  dsimp only at read
  split at read
  · cases read
  · rename_i first others begun
    have notBlank : Character.isBlank first = false := by
      apply ends
      rw [begun]
      rfl
    rcases lexed : start.lexeme first with ⟨found | kind, stopped⟩
    · rw [lexed] at read
      cases read
      exact ⟨blanks, start, blank, whole, moved, lexeme_error begun notBlank lexed⟩
    · rw [lexed] at read
      cases read

/-! ### What failures leave -/

theorem lexeme_outside {first : Char} (cursor : TextCursor) (outside : begins first = false) :
    cursor.lexeme first = (.error ⟨cursor.location, .unexpectedSymbol first⟩, cursor) := by
  unfold begins at outside
  rw [Bool.or_eq_false_iff, Bool.or_eq_false_iff, Bool.or_eq_false_iff,
    Option.isSome_eq_false_iff, Option.isNone_iff_eq_none] at outside
  obtain ⟨⟨⟨noMark, noOperator⟩, noDigit⟩, noWord⟩ := outside
  unfold lexeme
  rw [noMark, noOperator, noDigit, noWord]
  rfl

theorem token_stuck {first : Char} (rest : List Char) (place : Location)
    (notBlank : Character.isBlank first = false) (outside : begins first = false) :
    (TextCursor.mk (first :: rest) place).token =
      (.error ⟨place, .unexpectedSymbol first⟩, ⟨first :: rest, place⟩) := by
  have start : StopsAt Character.isBlank (first :: rest) := by
    intro character head
    cases head
    exact notBlank
  have taken : (TextCursor.mk (first :: rest) place).takeWhile Character.isBlank =
      ([], ⟨first :: rest, place⟩) := by
    rw [← List.nil_append (first :: rest)]
    exact takeWhile_run place nofun start
  unfold token
  rw [taken]
  dsimp only
  rw [lexeme_outside _ outside]
  rfl

end TextCursor

end Shading
