import Shading.Proofs.Lexer.Decomposition
import Shading.Proofs.Pending

/-!
A text has tokens exactly where it is a row of lexemes.

One token is one lexeme and the blanks in front of it; the items of a lexer follow
by induction on the row, or on the length of the text that is left.
-/

namespace Shading

/-! ### Tokens -/

namespace TextCursor

open Lexical

variable {cursor behind : TextCursor}

theorem token_none (read : cursor.token = (.ok none, behind)) :
    OnlyBlanks cursor.rest ∧ behind.rest = [] := by
  unfold token at read
  cases taken : cursor.takeWhile Character.isBlank with
  | mk blanks start =>
  obtain ⟨whole, blank, _, _⟩ := takeWhile_spec taken
  rw [taken] at read
  dsimp only at read
  split at read
  · rename_i ended
    cases read
    rw [whole, ended, List.append_nil]
    exact ⟨blank, rfl⟩
  · rename_i first others begun
    cases lexed : start.lexeme first with
    | mk result stopped =>
    rw [lexed] at read
    cases result with
    | error failure => cases read
    | ok kind => cases read

theorem token_some {found : Token} (read : cursor.token = (.ok (some found), behind)) :
    ∃ blanks run, OnlyBlanks blanks ∧ Lexeme run found.kind behind.rest ∧
      cursor.rest = blanks ++ (run ++ behind.rest) ∧
        found.location = cursor.location.afterAll blanks ∧
          behind.location = (cursor.location.afterAll blanks).afterAll run := by
  unfold token at read
  cases taken : cursor.takeWhile Character.isBlank with
  | mk blanks start =>
  obtain ⟨whole, blank, ends, moved⟩ := takeWhile_spec taken
  rw [taken] at read
  dsimp only at read
  split at read
  · cases read
  · rename_i first others begun
    have notBlank : Character.isBlank first = false := by
      apply ends
      rw [begun]
      rfl
    cases lexed : start.lexeme first with
    | mk result stopped =>
    rw [lexed] at read
    cases result with
    | error failure => cases read
    | ok kind =>
        cases read
        obtain ⟨run, lexeme, rest, movedOn⟩ := grammar_of_lexeme begun notBlank lexed
        refine ⟨blanks, run, blank, lexeme, ?_, moved, ?_⟩
        · rw [whole, rest]
        · rw [movedOn, moved]

theorem token_of_lexeme {blanks run rest : List Char} {kind : Token.Kind} (place : Location)
    (blank : OnlyBlanks blanks) (found : Lexeme run kind rest) :
    (TextCursor.mk (blanks ++ (run ++ rest)) place).token =
      (.ok (some ⟨kind, place.afterAll blanks⟩), ⟨rest, (place.afterAll blanks).afterAll run⟩) := by
  obtain ⟨first, others, begun, _, read⟩ := lexeme_of_grammar (place.afterAll blanks) found
  unfold token
  rw [takeWhile_run place blank found.notBlank]
  dsimp only
  split
  · rename_i ended
    rw [begun] at ended
    cases ended
  · rename_i head tail split
    rw [begun] at split
    obtain ⟨rfl, _⟩ := List.cons.inj split
    rw [read]
    rfl

theorem token_of_blanks {blanks : List Char} (place : Location) (blank : OnlyBlanks blanks) :
    (TextCursor.mk blanks place).token = (.ok none, ⟨[], place.afterAll blanks⟩) := by
  have ends : StopsAt Character.isBlank [] := by
    rintro character ⟨⟩
  have taken := takeWhile_run place blank ends
  rw [List.append_nil] at taken
  unfold token
  rw [taken]

end TextCursor

/-! ### Items that may be errors -/

section Items

variable {ε α : Type} {item : α} {items : List (Except ε α)} {good : List α}

theorem allOrError_map_ok (good : List α) :
    allOrError (good.map Except.ok : List (Except ε α)) = .ok good := by
  have all : untilError (good.map Except.ok : List (Except ε α)) = (good, none) := by
    induction good with
    | nil => rfl
    | cons item others ih =>
        rw [List.map_cons, untilError, ih]
  unfold allOrError
  rw [all]

theorem allOrError_cons_ok (finished : allOrError (.ok item :: items) = .ok good) :
    ∃ others, good = item :: others ∧ allOrError items = .ok others := by
  unfold allOrError untilError at finished
  unfold allOrError
  cases rest : untilError items with
  | mk others failure =>
  rw [rest] at finished
  cases failure with
  | none =>
      cases finished
      exact ⟨others, rfl, rfl⟩
  | some failure => cases finished

theorem untilError_append (good : List α) (failure : Option ε) :
    untilError (good.map Except.ok ++ failure.toList.map Except.error) = (good, failure) := by
  induction good with
  | nil => cases failure <;> rfl
  | cons item others ih => rw [List.map_cons, List.cons_append, untilError, ih]

end Items

/-! ### Lexers as sources -/

namespace Lexer

open Lexical

variable {cursor behind : TextCursor} {found : Token}

theorem pull_of_token (read : cursor.token = (.ok (some found), behind)) :
    Source.pull (Lexer.mk cursor false) = (some (.ok found), ⟨behind, false⟩) := by
  change (Lexer.mk cursor false).next = _
  rw [next, if_neg Bool.false_ne_true, attempt, read]

theorem pull_of_none (read : cursor.token = (.ok none, behind)) :
    Source.pull (Lexer.mk cursor false) = (none, ⟨behind, false⟩) := by
  change (Lexer.mk cursor false).next = _
  rw [next, if_neg Bool.false_ne_true, attempt, read]

theorem pull_of_error {failure : SyntaxError} (read : cursor.token = (.error failure, behind)) :
    Source.pull (Lexer.mk cursor false) = (some (.error failure), ⟨behind, true⟩) := by
  change (Lexer.mk cursor false).next = _
  rw [next, if_neg Bool.false_ne_true, attempt, read]

theorem pull_failed (cursor : TextCursor) :
    Source.pull (Lexer.mk cursor true) = (none, ⟨cursor, true⟩) := rfl

theorem token_shorter (read : cursor.token = (.ok (some found), behind)) :
    behind.rest.length < cursor.rest.length := by
  obtain ⟨blanks, run, _, lexeme, whole, _, _⟩ := TextCursor.token_some read
  obtain ⟨first, others, rfl, _⟩ := TextCursor.lexeme_of_grammar .origin lexeme
  rw [whole, List.length_append, List.length_append, List.length_cons]
  omega

/-- Lexing goes on token by token, up to an error or the end of the text. -/
@[elab_as_elim]
theorem lexing_induction {motive : TextCursor → Prop}
    (refused : ∀ (cursor behind : TextCursor) (failure : SyntaxError),
      cursor.token = (.error failure, behind) → motive cursor)
    (ended : ∀ cursor behind : TextCursor, cursor.token = (.ok none, behind) → motive cursor)
    (token : ∀ (cursor behind : TextCursor) (found : Token),
      cursor.token = (.ok (some found), behind) → motive behind → motive cursor)
    (cursor : TextCursor) : motive cursor := by
  generalize measured : cursor.rest.length = size
  induction size using Nat.strongRecOn generalizing cursor with
  | ind size ih =>
  rcases read : cursor.token with ⟨failure | _ | found, behind⟩
  · exact refused cursor behind failure read
  · exact ended cursor behind read
  · have shorter := token_shorter read
    exact token cursor behind found read (ih behind.rest.length (by omega) behind rfl)

instance : LawfulSource Lexer where
  size_lt := by
    rintro ⟨cursor, failed⟩ rest item pulled
    cases failed with
    | true =>
        rw [pull_failed] at pulled
        cases pulled
    | false =>
    cases read : cursor.token with
    | mk result behind =>
    cases result with
    | error failure =>
        rw [pull_of_error read] at pulled
        cases pulled
        exact Nat.succ_pos _
    | ok answer =>
    cases answer with
    | none =>
        rw [pull_of_none read] at pulled
        cases pulled
    | some found =>
        rw [pull_of_token read] at pulled
        cases pulled
        exact Nat.succ_lt_succ (token_shorter read)
  end_final := by
    rintro ⟨cursor, failed⟩ rest pulled
    cases failed with
    | true =>
        rw [pull_failed] at pulled
        cases pulled
        rfl
    | false =>
    cases read : cursor.token with
    | mk result behind =>
    cases result with
    | error failure =>
        rw [pull_of_error read] at pulled
        cases pulled
    | ok answer =>
    cases answer with
    | none =>
        -- Nothing but the end of the text is left, and there it stays.
        rw [pull_of_none read] at pulled
        cases pulled
        obtain ⟨_, ended⟩ := TextCursor.token_none read
        obtain ⟨left, place⟩ := behind
        cases ended
        rfl
    | some found =>
        rw [pull_of_token read] at pulled
        cases pulled

/-! ### Items -/

theorem items_of_token (read : cursor.token = (.ok (some found), behind)) :
    Source.items (Lexer.mk cursor false) = .ok found :: Source.items (Lexer.mk behind false) :=
  Source.items_of_pull_some (pull_of_token read)

theorem items_of_none (read : cursor.token = (.ok none, behind)) :
    Source.items (Lexer.mk cursor false) = [] :=
  Source.items_of_pull_none (congrArg Prod.fst (pull_of_none read))

theorem items_of_error {failure : SyntaxError} (read : cursor.token = (.error failure, behind)) :
    Source.items (Lexer.mk cursor false) = [.error failure] := by
  rw [Source.items_of_pull_some (pull_of_error read),
    Source.items_of_pull_none (congrArg Prod.fst (pull_failed behind))]

theorem items_of_pieces {pieces : List Piece} {leading : List Char} (place : Location)
    (blank : OnlyBlanks leading) (legal : Piece.Legal pieces) :
    Source.items (Lexer.mk ⟨leading ++ Piece.text pieces, place⟩ false) =
      (Piece.tokens (place.afterAll leading) pieces).map .ok := by
  induction pieces generalizing leading place with
  | nil =>
      have read := TextCursor.token_of_blanks place blank
      have empty : Piece.text [] = [] := rfl
      rw [empty, List.append_nil]
      exact items_of_none read
  | cons piece others ih =>
      obtain ⟨found, blankBehind, legalOthers⟩ := legal
      have read := TextCursor.token_of_lexeme place blank found
      rw [Piece.text_cons, items_of_token read, ih _ blankBehind legalOthers]
      rfl

theorem pieces_of_items {tokens : List Token}
    (finished : allOrError (Source.items (Lexer.mk cursor false)) = .ok tokens) :
    ∃ leading pieces, OnlyBlanks leading ∧ Piece.Legal pieces ∧
      leading ++ Piece.text pieces = cursor.rest ∧
        Piece.tokens (cursor.location.afterAll leading) pieces = tokens := by
  induction cursor using lexing_induction generalizing tokens with
  | refused cursor behind failure read =>
      rw [items_of_error read] at finished
      cases finished
  | ended cursor behind read =>
      rw [items_of_none read] at finished
      cases finished
      obtain ⟨blank, _⟩ := TextCursor.token_none read
      exact ⟨cursor.rest, [], blank, trivial, List.append_nil _, rfl⟩
  | token cursor behind found read ih =>
      rw [items_of_token read] at finished
      obtain ⟨others, rfl, finishedOthers⟩ := allOrError_cons_ok finished
      obtain ⟨blanks, pieces, blankBehind, legal, wholeBehind, sameOthers⟩ := ih finishedOthers
      obtain ⟨leading, run, blank, lexeme, whole, place, placeBehind⟩ :=
        TextCursor.token_some read
      rw [← wholeBehind] at whole lexeme
      refine ⟨leading, ⟨run, found.kind, blanks⟩ :: pieces, blank,
        ⟨lexeme, blankBehind, legal⟩, ?_, ?_⟩
      · rw [whole, Piece.text_cons]
      · rw [← sameOthers, placeBehind]
        obtain ⟨kind, location⟩ := found
        cases place
        rfl

theorem drain_cases (cursor : TextCursor) :
    (∃ (tokens : List Token) (behind : TextCursor), Source.drain (Lexer.mk cursor false) =
        (tokens.map Except.ok, ⟨behind, false⟩) ∧ behind.rest = []) ∨
    ∃ (tokens : List Token) (failure : SyntaxError) (behind : TextCursor),
      Source.drain (Lexer.mk cursor false) =
        (tokens.map Except.ok ++ [.error failure], ⟨behind, true⟩) := by
  induction cursor using lexing_induction with
  | refused cursor behind failure read =>
      have rest := Source.drain_of_pull_none (pull_failed behind)
      refine .inr ⟨[], failure, behind, ?_⟩
      rw [Source.drain_of_pull_some (pull_of_error read), rest]
      rfl
  | ended cursor behind read =>
      refine .inl ⟨[], behind, ?_, (TextCursor.token_none read).2⟩
      rw [Source.drain_of_pull_none (pull_of_none read)]
      rfl
  | token cursor behind found read ih =>
      rcases ih with ⟨tokens, last, drained, ended⟩ | ⟨tokens, failure, last, drained⟩
      · refine .inl ⟨found :: tokens, last, ?_, ended⟩
        rw [Source.drain_of_pull_some (pull_of_token read), drained]
        rfl
      · refine .inr ⟨found :: tokens, failure, last, ?_⟩
        rw [Source.drain_of_pull_some (pull_of_token read), drained]
        rfl

theorem items_shape (lexer : Lexer) :
    ∃ (tokens : List Token) (failure : Option SyntaxError),
      Source.items lexer = tokens.map Except.ok ++ failure.toList.map Except.error := by
  obtain ⟨cursor, failed⟩ := lexer
  cases failed with
  | true => exact ⟨[], none, Source.items_of_pull_none rfl⟩
  | false =>
  unfold Source.items
  rcases drain_cases cursor with ⟨tokens, behind, drained, _⟩ | ⟨tokens, failure, behind, drained⟩
  · refine ⟨tokens, none, ?_⟩
    rw [drained]
    exact (List.append_nil _).symm
  · refine ⟨tokens, some failure, ?_⟩
    rw [drained]
    rfl

end Lexer

theorem items_eq_tokensUntilError (source : String) :
    Source.items (Lexer.ofString source) =
      (tokensUntilError source).1.map Except.ok ++
        (tokensUntilError source).2.toList.map Except.error := by
  obtain ⟨tokens, failure, items⟩ := Lexer.items_shape (Lexer.ofString source)
  unfold tokensUntilError
  rw [items, untilError_append]

theorem tokenize_of_items {source : String} {tokens : List Token}
    (items : Source.items (Lexer.ofString source) = tokens.map .ok) :
    tokenize source = .ok tokens := by
  have read : tokenize source = allOrError (Source.items (Lexer.ofString source)) := rfl
  rw [read, items]
  exact allOrError_map_ok tokens

/-- A text has these tokens exactly if it can be cut into blanks and lexemes with
these tokens; and it can be cut in one way at most. -/
theorem tokenize_iff_decomposition (source : String) :
    (∀ tokens : List Token, tokenize source = .ok tokens ↔
      ∃ cut : Lexical.Decomposition source.toList, cut.tokens = tokens) ∧
    ∀ first second : Lexical.Decomposition source.toList, first = second := by
  refine ⟨fun tokens => ?_, Lexical.Decomposition.unique⟩
  have start : tokenize source =
      allOrError (Source.items (Lexer.mk ⟨source.toList, .origin⟩ false)) := rfl
  rw [start]
  constructor
  · intro finished
    obtain ⟨leading, pieces, blank, legal, whole, same⟩ := Lexer.pieces_of_items finished
    exact ⟨⟨leading, pieces, blank, legal, whole⟩, same⟩
  · rintro ⟨cut, rfl⟩
    have items := Lexer.items_of_pieces .origin cut.blank cut.legal
    rw [cut.whole] at items
    rw [items]
    exact allOrError_map_ok _

end Shading
