import Shading.Proofs.Lexer.Tokens
import Shading.Proofs.Relocation

/-!
A text that begins elsewhere has the same tokens elsewhere.

Places are moved along with the characters. If a change of places keeps up with
that, a lexer begun elsewhere gives out the same items elsewhere.
-/

namespace Shading

/-- A change of places keeps up with reading. -/
def Location.Steady (move : Location → Location) : Prop :=
  ∀ place character, move (place.after character) = (move place).after character

variable {move : Location → Location}

theorem Location.Steady.afterAll (steady : Location.Steady move) (place : Location)
    (run : List Char) : move (place.afterAll run) = (move place).afterAll run := by
  induction run generalizing place with
  | nil => rfl
  | cons character others ih =>
      change move ((place.after character).afterAll others) =
        ((move place).after character).afterAll others
      rw [ih, steady]

namespace TextCursor

def relocate (move : Location → Location) (cursor : TextCursor) : TextCursor :=
  ⟨cursor.rest, move cursor.location⟩

variable {cursor : TextCursor}

theorem relocate_next (steady : Location.Steady move) :
    (cursor.relocate move).next = (cursor.next.1, cursor.next.2.relocate move) := by
  obtain ⟨rest, place⟩ := cursor
  cases rest with
  | nil => rfl
  | cons character others =>
      unfold next relocate
      dsimp only
      rw [steady]

theorem relocate_takeWhile (steady : Location.Steady move) (accepts : Char → Bool) :
    (cursor.relocate move).takeWhile accepts =
      ((cursor.takeWhile accepts).1, (cursor.takeWhile accepts).2.relocate move) := by
  unfold takeWhile relocate
  dsimp only
  rw [steady.afterAll]

/-! ### Lexemes -/

theorem relocate_operatorRun (steady : Location.Steady move) :
    (cursor.relocate move).operatorRun =
      (cursor.operatorRun.1, cursor.operatorRun.2.relocate move) := by
  unfold operatorRun
  rw [relocate_takeWhile steady]
  dsimp only
  cases operatorKind? (cursor.takeWhile Character.isOperator).1 <;> rfl

theorem relocate_numeral (steady : Location.Steady move) :
    (cursor.relocate move).numeral =
      (cursor.numeral.1.mapError move, cursor.numeral.2.relocate move) := by
  unfold numeral
  rw [relocate_takeWhile steady]
  generalize cursor.takeWhile Character.isDigit = taken
  obtain ⟨whole, behindWhole⟩ := taken
  have kept (cursor : TextCursor) : (cursor.relocate move).rest = cursor.rest := rfl
  dsimp only
  rw [kept]
  split
  · rw [relocate_next steady, relocate_takeWhile steady]
    generalize behindWhole.next.2.takeWhile Character.isDigit = takenBehind
    obtain ⟨fraction, behind⟩ := takenBehind
    dsimp only
    rw [kept]
    split <;> rfl
  · rfl

theorem relocate_word (steady : Location.Steady move) :
    (cursor.relocate move).word = (cursor.word.1, cursor.word.2.relocate move) := by
  unfold word
  rw [relocate_takeWhile steady]

theorem relocate_lexeme (steady : Location.Steady move) (first : Char) :
    (cursor.relocate move).lexeme first =
      ((cursor.lexeme first).1.mapError (SyntaxError.relocate move),
        (cursor.lexeme first).2.relocate move) := by
  unfold lexeme
  cases Token.Punctuation.ofChar? first with
  | some mark =>
      dsimp only
      rw [relocate_next steady]
      rfl
  | none =>
      dsimp only
      by_cases operator : Character.isOperator first = true
      · rw [if_pos operator, if_pos operator, relocate_operatorRun steady]
        rcases cursor.operatorRun with ⟨fault | kind, behind⟩ <;> rfl
      · rw [if_neg operator, if_neg operator]
        by_cases digit : Character.isDigit first = true
        · rw [if_pos digit, if_pos digit, relocate_numeral steady]
          rcases cursor.numeral with ⟨place | value, behind⟩ <;> rfl
        · rw [if_neg digit, if_neg digit]
          by_cases word : Character.isWord first = true
          · rw [if_pos word, if_pos word, relocate_word steady]
            rfl
          · rw [if_neg word, if_neg word]
            rfl

theorem relocate_token (steady : Location.Steady move) :
    (cursor.relocate move).token =
      ((cursor.token.1.map (Option.map (Token.relocate move))).mapError
        (SyntaxError.relocate move), cursor.token.2.relocate move) := by
  unfold token
  rw [relocate_takeWhile steady]
  generalize (cursor.takeWhile Character.isBlank).2 = start
  have kept : (start.relocate move).rest = start.rest := rfl
  dsimp only
  rw [kept]
  rcases start.rest with _ | ⟨first, others⟩
  · rfl
  · dsimp only
    rw [relocate_lexeme steady]
    rcases start.lexeme first with ⟨failure | kind, behind⟩ <;> rfl

end TextCursor

/-! ### Lexers -/

namespace Lexer

def relocate (move : Location → Location) (lexer : Lexer) : Lexer :=
  ⟨lexer.text.relocate move, lexer.failed⟩

theorem relocate_pull (steady : Location.Steady move) (lexer : Lexer) :
    Source.pull (lexer.relocate move) =
      ((Source.pull lexer).1.map (relocateItem move), (Source.pull lexer).2.relocate move) := by
  obtain ⟨cursor, failed⟩ := lexer
  cases failed with
  | true => rfl
  | false =>
      have moved := cursor.relocate_token steady
      rcases read : cursor.token with ⟨failure | _ | found, behind⟩
      · rw [read] at moved
        have movedPull := pull_of_error moved
        rw [pull_of_error read]
        exact movedPull
      · rw [read] at moved
        have movedPull := pull_of_none moved
        rw [pull_of_none read]
        exact movedPull
      · rw [read] at moved
        have movedPull := pull_of_token moved
        rw [pull_of_token read]
        exact movedPull

/-- A lexer begun elsewhere gives out the same items elsewhere. -/
theorem items_relocate (steady : Location.Steady move) (lexer : Lexer) :
    Source.items (lexer.relocate move) = (Source.items lexer).map (relocateItem move) :=
  Source.items_map (relocate_pull steady) lexer

end Lexer

end Shading
