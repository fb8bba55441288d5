import Shading.Proofs.Lexer.Failures
import Shading.Proofs.Lexer.Tokens

/-!
A lexer that is asked in several ways.

A lexer gives out items one by one, tokens in spite of an earlier error, or all tokens
that are left. However the calls are mixed, their replies follow the items of a new lexer
up to the first error. From then on the calls differ: the items have ended, but an attempt
goes on from where the error left the text.
-/

namespace Shading

namespace Lexer

open Lexical

/-! ### Calls and replies -/

inductive Call where
  | next
  | attempt
  | tokenize
deriving DecidableEq, Repr

inductive Reply where
  | next (item : Option (Except SyntaxError Token))
  | attempt (result : Except SyntaxError (Option Token))
  | tokenize (result : Except SyntaxError (List Token))

def Reply.result : Reply → Except SyntaxError (List Token)
  | next none => .ok []
  | next (some item) => item.map fun token => [token]
  | attempt result => result.map Option.toList
  | tokenize result => result

def reply (lexer : Lexer) : Call → Reply × Lexer
  | .next =>
    let (item, after) := lexer.next
    (.next item, after)
  | .attempt =>
    let (result, after) := lexer.attempt
    (.attempt result, after)
  | .tokenize =>
    let (result, after) := lexer.tokenize
    (.tokenize result, after)

def replies (lexer : Lexer) : List Call → List Reply
  | [] => []
  | call :: others => (lexer.reply call).1 :: (lexer.reply call).2.replies others

def behind (lexer : Lexer) (calls : List Call) : Lexer :=
  calls.foldl (fun lexer call => (lexer.reply call).2) lexer

/-- The tokens that replies gave out before the first error among them, and that error. -/
def gathered (replies : List Reply) : List Token × Option SyntaxError :=
  let (lists, failure) := untilError (replies.map Reply.result)
  (lists.flatten, failure)

/-- The tokens that a lexer has left before its next error, and that error. -/
def remainder (lexer : Lexer) : List Token × Option SyntaxError :=
  untilError (Source.items lexer)

variable {lexer : Lexer} {call : Call}

theorem gathered_cons_ok {reply : Reply} {tokens : List Token} (others : List Reply)
    (result : reply.result = .ok tokens) :
    gathered (reply :: others) = (tokens ++ (gathered others).1, (gathered others).2) := by
  unfold gathered
  rw [List.map_cons, result, untilError]
  rfl

theorem gathered_cons_error {reply : Reply} {failure : SyntaxError} (others : List Reply)
    (result : reply.result = .error failure) : gathered (reply :: others) = ([], some failure) := by
  unfold gathered
  rw [List.map_cons, result]
  rfl

/-- What holds of every reply of some lexers holds of all their replies, if these lexers
stay among themselves. -/
theorem replies_keep (holds : Lexer → Prop) (shows : Reply → Prop) (begun : holds lexer)
    (step : ∀ {lexer : Lexer}, holds lexer → ∀ call,
      shows (lexer.reply call).1 ∧ holds (lexer.reply call).2)
    (calls : List Call) : ∀ reply ∈ lexer.replies calls, shows reply := by
  induction calls generalizing lexer with
  | nil => exact List.forall_mem_nil _
  | cons call others ih =>
      have first := step begun call
      exact List.forall_mem_cons.mpr ⟨first.1, ih first.2⟩

/-! ### A single call -/

section Single

variable {cursor behind : TextCursor} {failure : SyntaxError}

theorem remainder_of_token {found : Token} (read : cursor.token = (.ok (some found), behind)) :
    remainder ⟨cursor, false⟩ =
      (found :: (remainder ⟨behind, false⟩).1, (remainder ⟨behind, false⟩).2) := by
  unfold remainder
  rw [items_of_token read]
  rfl

theorem remainder_of_error (read : cursor.token = (.error failure, behind)) :
    remainder ⟨cursor, false⟩ = ([], some failure) := by
  unfold remainder
  rw [items_of_error read]
  rfl

theorem remainder_of_blanks (lexer : Lexer) (blank : OnlyBlanks lexer.text.rest) :
    lexer.remainder = ([], none) := by
  obtain ⟨⟨rest, place⟩, failed⟩ := lexer
  have ended : Source.items (Lexer.mk ⟨rest, place⟩ failed) = [] := by
    apply Source.items_of_pull_none
    cases failed with
    | true => rfl
    | false => rw [pull_of_none (TextCursor.token_of_blanks place blank)]
  unfold remainder
  rw [ended]
  rfl

theorem next_of_token {answer : Option Token} (read : cursor.token = (.ok answer, behind)) :
    (Lexer.mk cursor false).next = (answer.map .ok, ⟨behind, false⟩) := by
  unfold next attempt
  rw [read]
  cases answer <;> rfl

theorem tokenize_failed (cursor : TextCursor) :
    (Lexer.mk cursor true).tokenize = (.ok [], ⟨cursor, true⟩) := by
  unfold tokenize
  rw [Source.drain_of_pull_none (pull_failed cursor)]
  rfl

end Single

/-- A reply of a lexer that met no error so far: the error that is next, or some of the
tokens that are left, and all of them if all were asked for. -/
inductive Replied (call : Call) (whole : List Token × Option SyntaxError) :
    Reply × Lexer → Prop where
  | error {reply : Reply} {after : Lexer} {failure : SyntaxError}
      (result : reply.result = .error failure) (nextError : whole.2 = some failure)
      (fused : call ≠ .attempt → after.failed = true) : Replied call whole (reply, after)
  | tokens {reply : Reply} {tokens : List Token} {behind : TextCursor}
      (result : reply.result = .ok tokens)
      (split : whole =
        (tokens ++ (remainder ⟨behind, false⟩).1, (remainder ⟨behind, false⟩).2))
      (all : call = .tokenize → behind.rest = []) : Replied call whole (reply, ⟨behind, false⟩)

section Replied

variable {cursor behind : TextCursor} {reply : Reply}

theorem remainder_at_end (ended : behind.rest = []) : remainder ⟨behind, false⟩ = ([], none) := by
  have blank : OnlyBlanks (Lexer.mk behind false).text.rest := by
    dsimp only
    rw [ended]
    exact List.forall_mem_nil _
  exact remainder_of_blanks _ blank

theorem Replied.of_token {answer : Option Token} (read : cursor.token = (.ok answer, behind))
    (single : call ≠ .tokenize) (result : reply.result = .ok answer.toList) :
    Replied call (remainder ⟨cursor, false⟩) (reply, ⟨behind, false⟩) := by
  cases answer with
  | none =>
      obtain ⟨blank, ended⟩ := TextCursor.token_none read
      refine .tokens result ?_ fun same => absurd same single
      rw [remainder_at_end ended]
      exact remainder_of_blanks ⟨cursor, false⟩ blank
  | some found => exact .tokens result (remainder_of_token read) fun same => absurd same single

theorem replied_attempt (cursor : TextCursor) :
    Replied .attempt (remainder ⟨cursor, false⟩) ((Lexer.mk cursor false).reply .attempt) := by
  unfold Lexer.reply attempt
  rcases read : cursor.token with ⟨failure | answer, behind⟩
  · rw [remainder_of_error read]
    exact .error rfl rfl nofun
  · exact .of_token read nofun rfl

theorem replied_next (cursor : TextCursor) :
    Replied .next (remainder ⟨cursor, false⟩) ((Lexer.mk cursor false).reply .next) := by
  unfold Lexer.reply
  rcases read : cursor.token with ⟨failure | answer, behind⟩
  · have pulled := pull_of_error read
    change next _ = _ at pulled
    rw [pulled, remainder_of_error read]
    exact .error rfl rfl fun _ => rfl
  · have result : (Reply.next (answer.map .ok)).result = .ok answer.toList := by
      cases answer <;> rfl
    rw [next_of_token read]
    exact Replied.of_token read nofun result

theorem replied_tokenize (cursor : TextCursor) :
    Replied .tokenize (remainder ⟨cursor, false⟩) ((Lexer.mk cursor false).reply .tokenize) := by
  unfold Lexer.reply tokenize remainder Source.items allOrError
  rcases drain_cases cursor with
    ⟨tokens, behind, drained, ended⟩ | ⟨tokens, failure, behind, drained⟩
  · have cut := untilError_append tokens (none : Option SyntaxError)
    rw [Option.toList_none, List.map_nil, List.append_nil] at cut
    rw [drained]
    dsimp only
    rw [cut]
    refine .tokens rfl ?_ fun _ => ended
    rw [remainder_at_end ended, List.append_nil]
  · have cut := untilError_append tokens (some failure)
    rw [Option.toList_some, List.map_singleton] at cut
    rw [drained]
    dsimp only
    rw [cut]
    exact .error rfl rfl fun _ => rfl

theorem replied (cursor : TextCursor) (call : Call) :
    Replied call (remainder ⟨cursor, false⟩) ((Lexer.mk cursor false).reply call) := by
  cases call with
  | next => exact replied_next cursor
  | attempt => exact replied_attempt cursor
  | tokenize => exact replied_tokenize cursor

end Replied

/-! ### Before the first error -/

def Follows (part whole : List Token × Option SyntaxError) : Prop :=
  part.1 <+: whole.1 ∧ ∀ failure, part.2 = some failure → whole.2 = some failure

theorem Follows.append {part whole : List Token × Option SyntaxError} (tokens : List Token)
    (follows : Follows part whole) :
    Follows (tokens ++ part.1, part.2) (tokens ++ whole.1, whole.2) :=
  ⟨(List.prefix_append_right_inj tokens).mpr follows.1, follows.2⟩

theorem gathered_follows (cursor : TextCursor) (calls : List Call) :
    Follows (gathered ((Lexer.mk cursor false).replies calls)) (remainder ⟨cursor, false⟩) := by
  induction calls generalizing cursor with
  | nil =>
      refine ⟨List.nil_prefix, ?_⟩
      intro failure absurdity
      cases absurdity
  | cons call others ih =>
      have first := replied cursor call
      rw [replies]
      generalize (Lexer.mk cursor false).reply call = answer at first
      cases first with
      | error result nextError _ =>
          rw [gathered_cons_error _ result]
          refine ⟨List.nil_prefix, ?_⟩
          intro failure same
          cases same
          exact nextError
      | tokens result split _ =>
          rw [gathered_cons_ok _ result, split]
          exact (ih _).append _

theorem gathered_all {cursor : TextCursor} {before : List Call}
    (unfailed :
      (gathered ((Lexer.mk cursor false).replies (before ++ [.tokenize]))).2 = none) :
    gathered ((Lexer.mk cursor false).replies (before ++ [.tokenize])) =
        remainder ⟨cursor, false⟩ ∧
      ((Lexer.mk cursor false).behind (before ++ [.tokenize])).text.rest = [] := by
  induction before generalizing cursor with
  | nil =>
      have last := replied cursor .tokenize
      change (gathered [((Lexer.mk cursor false).reply .tokenize).1]).2 = none at unfailed
      change gathered [((Lexer.mk cursor false).reply .tokenize).1] = _ ∧
        ((Lexer.mk cursor false).reply .tokenize).2.text.rest = []
      generalize (Lexer.mk cursor false).reply .tokenize = answer at last unfailed ⊢
      cases last with
      | error result _ _ =>
          rw [gathered_cons_error _ result] at unfailed
          cases unfailed
      | tokens result split all =>
          rw [gathered_cons_ok _ result, split, remainder_at_end (all rfl)]
          exact ⟨rfl, all rfl⟩
  | cons call before ih =>
      have first := replied cursor call
      rw [List.cons_append, replies] at unfailed ⊢
      change _ ∧ (((Lexer.mk cursor false).reply call).2.behind
        (before ++ [.tokenize])).text.rest = []
      generalize (Lexer.mk cursor false).reply call = answer at first unfailed ⊢
      cases first with
      | error result _ _ =>
          rw [gathered_cons_error _ result] at unfailed
          cases unfailed
      | tokens result split _ =>
          rw [gathered_cons_ok _ result] at unfailed ⊢
          obtain ⟨same, ended⟩ := ih unfailed
          rw [same, split]
          exact ⟨rfl, ended⟩

/-! ### At the end of the text -/

theorem reply_exhausted (ended : lexer.text.rest = []) (call : Call) :
    (lexer.reply call).1.result = .ok [] ∧ (lexer.reply call).2.text.rest = [] := by
  obtain ⟨⟨rest, place⟩, failed⟩ := lexer
  cases ended
  have read : (TextCursor.mk [] place).token = (.ok none, ⟨[], place⟩) :=
    TextCursor.token_of_blanks place (List.forall_mem_nil _)
  cases call with
  | attempt =>
      unfold reply attempt
      rw [read]
      exact ⟨rfl, rfl⟩
  | next =>
      unfold reply
      cases failed with
      | true => exact ⟨rfl, rfl⟩
      | false =>
          rw [next_of_token read]
          exact ⟨rfl, rfl⟩
  | tokenize =>
      unfold reply
      cases failed with
      | true =>
          rw [tokenize_failed]
          exact ⟨rfl, rfl⟩
      | false =>
          unfold tokenize
          rw [Source.drain_of_pull_none (pull_of_none read)]
          exact ⟨rfl, rfl⟩

/-! ### Behind an error -/

theorem reply_failed (failed : lexer.failed = true) (call : Call) :
    ((lexer.reply call).1 = .next none ∨ (lexer.reply call).1 = .tokenize (.ok []) ∨
      ∃ result, (lexer.reply call).1 = .attempt result) ∧
        (lexer.reply call).2.failed = true := by
  obtain ⟨cursor, fused⟩ := lexer
  cases failed
  cases call with
  | next => exact ⟨.inl rfl, rfl⟩
  | attempt => exact ⟨.inr (.inr ⟨_, rfl⟩), rfl⟩
  | tokenize =>
      unfold reply
      rw [tokenize_failed]
      exact ⟨.inr (.inl rfl), rfl⟩

theorem failed_of_error {failure : SyntaxError} (item : call ≠ .attempt)
    (result : (lexer.reply call).1.result = .error failure) :
    (lexer.reply call).2.failed = true := by
  obtain ⟨cursor, failed⟩ := lexer
  cases failed with
  | true => exact (reply_failed rfl call).2
  | false =>
      have answered := replied cursor call
      generalize (Lexer.mk cursor false).reply call = answer at answered result ⊢
      cases answered with
      | error _ _ fused => exact fused item
      | tokens given _ _ =>
          rw [given] at result
          cases result

theorem reply_stuck {first : Char} {rest : List Char} {place : Location}
    (notBlank : Character.isBlank first = false) (outside : begins first = false)
    (here : lexer.text = ⟨first :: rest, place⟩) (call : Call) :
    (∀ result, (lexer.reply call).1 = .attempt result →
      result = .error ⟨place, .unexpectedSymbol first⟩) ∧
        (lexer.reply call).2.text = ⟨first :: rest, place⟩ := by
  obtain ⟨cursor, failed⟩ := lexer
  cases here
  have read := TextCursor.token_stuck rest place notBlank outside
  constructor
  · intro result replied
    cases call with
    | next => cases replied
    | tokenize => cases replied
    | attempt =>
        unfold reply attempt at replied
        rw [read] at replied
        cases replied
        rfl
  · cases failed with
    | true =>
        cases call with
        | next => rfl
        | attempt =>
            unfold reply attempt
            rw [read]
        | tokenize =>
            unfold reply
            rw [tokenize_failed]
    | false =>
        have pulled := pull_of_error read
        cases call with
        | next =>
            change next _ = _ at pulled
            unfold reply
            rw [pulled]
        | attempt =>
            unfold reply attempt
            rw [read]
        | tokenize =>
            unfold reply tokenize
            rw [Source.drain_of_pull_some pulled, Source.drain_of_pull_none (pull_failed _)]

/-! ### Behind an attempt that failed -/

section Attempt

variable {place : Location} {symbol : Char}

theorem attempt_error {failure : SyntaxError} (failed : lexer.attempt.1 = .error failure) :
    ∃ (blanks : List Char) (start : TextCursor), OnlyBlanks blanks ∧
      lexer.text.rest = blanks ++ start.rest ∧
        start.location = lexer.text.location.afterAll blanks ∧
          start.Fails failure lexer.attempt.2.text := by
  apply TextCursor.token_error
  exact Prod.ext failed rfl

theorem attempt_symbol (failed : lexer.attempt.1 = .error ⟨place, .unexpectedSymbol symbol⟩)
    (outside : begins symbol = false) :
    Character.isBlank symbol = false ∧
      ∃ rest, lexer.attempt.2.text = ⟨symbol :: rest, place⟩ := by
  obtain ⟨blanks, start, _, _, _, fails⟩ := attempt_error failed
  generalize lexer.attempt.2.text = left at fails ⊢
  cases fails with
  | @symbol rest _ _ notBlank _ => exact ⟨notBlank, rest, rfl⟩
  | point _ _ _ => cases outside

theorem attempt_point (failed : lexer.attempt.1 = .error ⟨place, .unexpectedSymbol symbol⟩)
    (inside : begins symbol = true) :
    symbol = '.' ∧ lexer.attempt.2.attempt.1 = .ok (some ⟨.mark .dot, place⟩) := by
  obtain ⟨blanks, start, _, _, _, fails⟩ := attempt_error failed
  unfold attempt at fails ⊢
  dsimp only at fails ⊢
  generalize lexer.text.token.2 = left at fails ⊢
  cases fails with
  | symbol _ outside =>
      rw [outside] at inside
      cases inside
  | @point _ _ later _ _ _ _ _ _ =>
      have dot : Lexeme ['.'] (.mark .dot) later := .mark .dot
      have blank : OnlyBlanks [] := List.forall_mem_nil _
      have read := TextCursor.token_of_lexeme place blank dot
      exact ⟨rfl, congrArg Prod.fst read⟩

theorem attempt_run {text : String}
    (failed : lexer.attempt.1 = .error ⟨place, .invalidOperatorRun text⟩) :
    ∃ blanks rest, OnlyBlanks blanks ∧ lexer.text.rest = blanks ++ (text.toList ++ rest) ∧
      place = lexer.text.location.afterAll blanks ∧
      (∀ character ∈ text.toList, Character.isOperator character = true) ∧
      StopsAt Character.isOperator rest ∧
        lexer.attempt.2.text = ⟨rest, place.afterAll text.toList⟩ := by
  obtain ⟨blanks, start, blank, whole, placed, fails⟩ := attempt_error failed
  generalize lexer.attempt.2.text = left at fails ⊢
  cases fails with
  | @run others rest first _ notBlank inside ends noOperator =>
      rw [String.toList_ofList]
      exact ⟨blanks, rest, blank, whole, placed, inside, ends, rfl⟩

end Attempt

theorem behind_append (lexer : Lexer) (before : List Call) (call : Call) :
    lexer.behind (before ++ [call]) = ((lexer.behind before).reply call).2 :=
  List.foldl_append

/-- However calls are mixed, their replies follow the items of a new lexer: the tokens given
out before the first error are the first of its tokens, and that error is its error. All
tokens at once are all that are left. When an item was an error, there are no more items and
no more tokens at once. An attempt that failed leaves the text in front of a character that
begins no lexeme, which every attempt meets again; behind a whole run that is no operator;
or in front of a second point, which is read as a mark. -/
theorem calls_follow_items (source : String) :
    (∀ calls, Follows (gathered ((ofString source).replies calls)) (tokensUntilError source)) ∧
    (∀ before later, (gathered ((ofString source).replies (before ++ [.tokenize]))).2 = none →
      gathered ((ofString source).replies (before ++ [.tokenize])) = tokensUntilError source ∧
        ∀ reply ∈ ((ofString source).behind (before ++ [.tokenize])).replies later,
          reply.result = .ok []) ∧
    (∀ before call later failure, call ≠ .attempt →
      (((ofString source).behind before).reply call).1.result = .error failure →
        ∀ reply ∈ ((ofString source).behind (before ++ [call])).replies later,
          reply = .next none ∨ reply = .tokenize (.ok []) ∨ ∃ result, reply = .attempt result) ∧
    ∀ before place,
      let here := (ofString source).behind before
      let left := (ofString source).behind (before ++ [.attempt])
      (∀ symbol, here.attempt.1 = .error ⟨place, .unexpectedSymbol symbol⟩ →
        begins symbol = false → ∀ later result, .attempt result ∈ left.replies later →
          result = .error ⟨place, .unexpectedSymbol symbol⟩) ∧
      (∀ text, here.attempt.1 = .error ⟨place, .invalidOperatorRun text⟩ →
        ∃ blanks rest, OnlyBlanks blanks ∧ here.text.rest = blanks ++ (text.toList ++ rest) ∧
          place = here.text.location.afterAll blanks ∧
          (∀ character ∈ text.toList, Character.isOperator character = true) ∧
          StopsAt Character.isOperator rest ∧ left.text = ⟨rest, place.afterAll text.toList⟩) ∧
      ∀ symbol, here.attempt.1 = .error ⟨place, .unexpectedSymbol symbol⟩ →
        begins symbol = true →
          symbol = '.' ∧ left.attempt.1 = .ok (some ⟨.mark .dot, place⟩) := by
  refine ⟨gathered_follows _, ?_, ?_, ?_⟩
  · intro before later unfailed
    obtain ⟨same, ended⟩ := gathered_all unfailed
    refine ⟨same, replies_keep (fun lexer => lexer.text.rest = []) _ ended ?_ later⟩
    exact reply_exhausted
  · intro before call later failure item result
    rw [behind_append]
    refine replies_keep (fun lexer => lexer.failed = true) _ (failed_of_error item result) ?_ later
    exact reply_failed
  · intro before place here left
    have step : left = here.attempt.2 := behind_append (ofString source) before .attempt
    rw [step]
    refine ⟨?_, fun text => attempt_run, fun symbol => attempt_point⟩
    intro symbol failed outside later result among
    obtain ⟨notBlank, rest, stays⟩ := attempt_symbol failed outside
    have met := replies_keep (fun lexer => lexer.text = ⟨symbol :: rest, place⟩)
      (fun reply => ∀ result, reply = .attempt result →
        result = .error ⟨place, .unexpectedSymbol symbol⟩) stays
      (reply_stuck notBlank outside) later
    exact met _ among result rfl

/-- A numeral with a second point, a run that is no operator, and a character that begins
no lexeme. -/
def threeFaults : String := "1.2. =+ $"

def attempted (count : Nat) : Lexer :=
  (Lexer.ofString threeFaults).behind (List.replicate count .attempt)

theorem calls_follow_items_of_threeFaults :
    ((attempted 0).attempt.1 = .error ⟨⟨0, 3⟩, .unexpectedSymbol '.'⟩ ∧
      (attempted 1).attempt.1 = .ok (some ⟨.mark .dot, ⟨0, 3⟩⟩)) ∧
    ((attempted 2).attempt.1 = .error ⟨⟨0, 5⟩, .invalidOperatorRun "=+"⟩ ∧
      ∃ rest, StopsAt Character.isOperator rest ∧ (attempted 3).text = ⟨rest, ⟨0, 7⟩⟩) ∧
    ((attempted 3).attempt.1 = .error ⟨⟨0, 8⟩, .unexpectedSymbol '$'⟩ ∧
      ∀ later result, .attempt result ∈ (attempted 4).replies later →
        result = .error ⟨⟨0, 8⟩, .unexpectedSymbol '$'⟩) ∧
    (((attempted 3).reply .next).1.result = .error ⟨⟨0, 8⟩, .unexpectedSymbol '$'⟩ ∧
      ∀ later, ∀ reply ∈ ((attempted 3).reply .next).2.replies later,
        reply = .next none ∨ reply = .tokenize (.ok []) ∨ ∃ result, reply = .attempt result) ∧
    (gathered ((Lexer.ofString "f ;").replies [.next, .tokenize])).2 = none ∧
      gathered ((Lexer.ofString "f ;").replies [.next, .tokenize]) = tokensUntilError "f ;" := by
  obtain ⟨_, _, fused, attempts⟩ := calls_follow_items threeFaults
  have pointError : (attempted 0).attempt.1 = .error ⟨⟨0, 3⟩, .unexpectedSymbol '.'⟩ := rfl
  have runError : (attempted 2).attempt.1 = .error ⟨⟨0, 5⟩, .invalidOperatorRun "=+"⟩ := rfl
  have signError : (attempted 3).attempt.1 = .error ⟨⟨0, 8⟩, .unexpectedSymbol '$'⟩ := rfl
  have itemError : ((attempted 3).reply .next).1.result =
      .error ⟨⟨0, 8⟩, .unexpectedSymbol '$'⟩ := rfl
  have unfailed : (gathered ((Lexer.ofString "f ;").replies [.next, .tokenize])).2 = none := rfl
  have dot := ((attempts (List.replicate 0 .attempt) ⟨0, 3⟩).2.2 '.' pointError rfl).2
  obtain ⟨_, rest, _, _, _, _, ends, left⟩ :=
    (attempts (List.replicate 2 .attempt) ⟨0, 5⟩).2.1 _ runError
  have stuck := (attempts (List.replicate 3 .attempt) ⟨0, 8⟩).1 '$' signError rfl
  have silent := fun later =>
    fused (List.replicate 3 .attempt) .next later _ Call.noConfusion itemError
  have all := ((calls_follow_items "f ;").2.1 [.next] [] unfailed).1
  simp only [behind_append] at silent
  exact ⟨⟨pointError, dot⟩, ⟨runError, rest, ends, left⟩, ⟨signError, stuck⟩, ⟨itemError, silent⟩,
    unfailed, all⟩

end Lexer

end Shading
