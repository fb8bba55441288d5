import Shading.Proofs.Invariants
import Shading.Proofs.Lexer.Failures
import Shading.Proofs.Lexer.Tokens

/-!
A parser behind a lexical error.

A lexer gives out one error and then nothing. A parser that has only looked at the error keeps
it on hold and reports it whenever it is asked again; a parser that has taken it is at the end
of its tokens. Which of the two it is depends on where in a construct the error was met. Either
way the parser stays as it is, whatever it is asked for.
-/

namespace Shading

open Grammar

/-! ### Faults of the lexer -/

/-- The faults of texts that do not fall into lexemes. -/
def Fault.isLexical : Fault → Bool
  | unexpectedSymbol _ | invalidOperatorRun _ => true
  | _ => false

theorem Fault.isLexical_of_isEnd {fault : Fault} (isEnd : fault.isEnd = true) :
    fault.isLexical = false := by
  cases fault with
  | unexpectedSymbol symbol => cases isEnd
  | invalidOperatorRun run => cases isEnd
  | _ => rfl

theorem Fault.TellsOf.isLexical_eq_false {fault : Fault} {kind : Token.Kind}
    (tells : fault.TellsOf kind) : fault.isLexical = false := by
  cases fault with
  | unexpectedSymbol symbol => cases tells
  | invalidOperatorRun run => cases tells
  | _ => rfl

theorem Halt.Justified.isLexical_eq_false {halt : Halt} {after : Trail}
    (justified : halt.Justified after) (unmet : ∀ failure, halt ≠ .item failure)
    (place : Location) : (halt.failure place).fault.isLexical = false := by
  cases justified with
  | item => exact absurd rfl (unmet _)
  | ended isEnd => exact Fault.isLexical_of_isEnd isEnd
  | parameters => rfl
  | ahead names => exact names.2.isLexical_eq_false
  | taken names => exact names.2.isLexical_eq_false
  | role => rfl

theorem TextCursor.Fails.isLexical {cursor behind : TextCursor} {failure : SyntaxError}
    (fails : cursor.Fails failure behind) : failure.fault.isLexical = true := by
  cases fails <;> rfl

theorem Lexer.isLexical_of_item {cursor : TextCursor} {failure : SyntaxError}
    (among : .error failure ∈ Source.items (Lexer.mk cursor false)) :
    failure.fault.isLexical = true := by
  induction cursor using lexing_induction with
  | refused cursor behind found read =>
      rw [items_of_error read] at among
      cases List.mem_singleton.mp among
      obtain ⟨_, _, _, _, _, fails⟩ := TextCursor.token_error read
      exact fails.isLexical
  | ended cursor behind read =>
      rw [items_of_none read] at among
      cases among
  | token cursor behind found read ih =>
      rw [items_of_token read] at among
      exact ih ((List.mem_cons.mp among).resolve_left nofun)

theorem isLexical_of_tokensUntilError {source : String} {failure : SyntaxError}
    (lexical : (tokensUntilError source).2 = some failure) : failure.fault.isLexical = true := by
  have among : .error failure ∈ Source.items (Lexer.ofString source) := by
    rw [items_eq_tokensUntilError, lexical]
    exact List.mem_append_right _ (List.mem_singleton_self _)
  exact Lexer.isLexical_of_item among

/-! ### Where an error was met -/

theorem Reading.Explores.item_met {α : Type} {reading : Reading α} {trail after : Trail}
    {failure : SyntaxError} (explored : reading.Explores trail (.error (.item failure)) after) :
    after.ahead = some (some (.error failure)) ∨
      after.ahead = none ∧ after.taken.getLast? = some (.error failure) := by
  generalize ended : (Except.error (.item failure) : Except Halt α) = ending at explored
  induction explored with
  | done => cases ended
  | fail => cases ended
  | failAtLast => cases ended
  | lookToken _ _ ih => exact ih ended
  | lookEnd _ _ ih => exact ih ended
  | lookError _ =>
      cases ended
      exact .inl rfl
  | takeToken _ _ ih => exact ih ended
  | takeEnd _ => cases ended
  | takeError _ =>
      cases ended
      exact .inr ⟨rfl, List.getLast?_concat⟩

section Met

variable {σ : Type} [Source σ TokenItem] {parser after : Parser σ} {failure : SyntaxError}

def Parser.Met (parser : Parser σ) (failure : SyntaxError) : Prop :=
  parser.held = some (.error failure) ∨
    parser.held = none ∧ parser.last = some (.error failure)

variable [LawfulSource σ]

/-- A fair reading that begins with a look reports a lexical error only where it met it. -/
theorem Reading.Fair.met {α : Type} {next : Option Token → Reading α} {gives : α → Trail → Prop}
    (fair : (Reading.look next).Fair parser.pending.length Trail.start gives)
    (failed : (Reading.look next).run parser = (.error failure, after))
    (lexical : failure.fault.isLexical = true) : after.Met failure := by
  have listed := Reading.run_listed (.look next) parser
  obtain ⟨ending, trail, later, explored, _, kept, ran⟩ :=
    Reading.run_explores (.look next) (Trail.holding parser.held) parser.listed
      (Trail.fits_holding parser.listed)
  have whole : parser.pending = trail.shown ++ later := by
    rw [← kept]
    unfold Lookahead.pending Trail.holding Trail.shown Lookahead.listed
    cases parser.held <;> rfl
  have start : (Trail.holding parser.held).onto parser.listed parser.listed.source =
      parser.listed := Trail.onto_holding parser.listed
  rw [start, listed, failed] at ran
  obtain ⟨told, left⟩ := Prod.mk.inj ran
  rcases ending with halt | value
  · have same := Except.error.inj told
    have justified := fair.justified explored.unheld (by
      rw [whole, List.length_append]
      exact Nat.le_add_left_of_le (Nat.le_add_right _ _))
    by_cases item : ∃ found, halt = .item found
    · obtain ⟨found, rfl⟩ := item
      cases same
      have held : after.held = trail.ahead.join := congrArg Lookahead.held left
      have last : after.last = trail.taken.getLast?.or parser.last :=
        congrArg Lookahead.last left
      rcases explored.item_met with ahead | ⟨ahead, taken⟩
      · rw [ahead] at held
        exact .inl held
      · rw [ahead] at held
        rw [taken] at last
        exact .inr ⟨held, last⟩
    · have unmet := justified.isLexical_eq_false (fun found isItem => item ⟨found, isItem⟩)
        (trail.onto parser.listed later).lastPlace
      rw [same] at lexical
      rw [lexical] at unmet
      cases unmet
  · cases told

end Met

/-! ### Answers that repeat -/

def Request.failed (failure : SyntaxError) : Request → Answer
  | .expression _ => .expression (.error failure)
  | .program => .program (.error failure)

def Request.ended : Request → Answer
  | .expression _ => .expression (.ok none)
  | .program => .program (.ok ⟨[]⟩)

theorem Request.failed_ne_ended {failure : SyntaxError} (request : Request) :
    request.failed failure ≠ request.ended := by
  cases request <;> nofun

section Repeats

variable {σ : Type} [Source σ TokenItem] {parser : Parser σ} {failure : SyntaxError}
  {reply : Request → Answer}

theorem Parser.met_of_answer [LawfulSource σ] {request : Request}
    (answered : (parser.answer request).1 = request.failed failure)
    (lexical : failure.fault.isLexical = true) : (parser.answer request).2.Met failure := by
  have enough : parser.pending.length < parser.pending.length + 1 := Nat.lt_succ_self _
  cases request with
  | expression bound =>
      have fair : (Grammar.expression (parser.pending.length + 1) bound).Fair
          parser.pending.length .start Leaves := expression_fair _ enough
      rw [answer] at answered ⊢
      rw [expression_eq_run enough] at answered ⊢
      rcases ran : (Grammar.expression (parser.pending.length + 1) bound).run parser
        with ⟨found, after⟩
      rw [ran] at answered
      cases answered
      exact fair.met ran lexical
  | program =>
      have fair : (programForm (parser.pending.length + 1) (parser.pending.length + 1)).Fair
          parser.pending.length .start Anything := programForm_fair enough
      rw [answer] at answered ⊢
      rw [program_eq_run enough enough] at answered ⊢
      rcases ran : (programForm (parser.pending.length + 1) (parser.pending.length + 1)).run
        parser with ⟨found | trees, after⟩
      · rw [ran] at answered
        cases answered
        exact fair.met ran lexical
      · rw [ran] at answered
        cases answered

/-- A parser that answers every request in one way and is the same at every moment. -/
structure Parser.Repeats (parser : Parser σ) (reply : Request → Answer) : Prop where
  answer : ∀ request, parser.answer request = (reply request, parser)
  moments : ∀ request, ∀ moment ∈ Moment.ofRequest ⟨[], parser⟩ request, moment = ⟨[], parser⟩

theorem Parser.repeats_of_expression {outcome : Except SyntaxError (Option Expression)}
    (found : ∀ bound, parser.expression bound = (outcome, parser))
    (seen : ∀ bound, Moment.ofReading (Grammar.expression (parser.remaining + 1) bound)
      ⟨[], parser⟩ = [⟨[], parser⟩])
    (nothing : ∀ tree, outcome ≠ .ok (some tree))
    (replies : (∀ bound, reply (.expression bound) = .expression outcome) ∧
      reply .program = .program (outcome.map fun _ => ⟨[]⟩)) : parser.Repeats reply := by
  constructor
  · intro request
    cases request with
    | expression bound =>
        rw [answer, found, replies.1]
    | program =>
        rw [answer, program, programNoting, programWithin, found, replies.2]
        rcases outcome with failure | _ | tree
        · rfl
        · rfl
        · exact absurd rfl (nothing tree)
  · intro request moment among
    cases request with
    | expression bound =>
        rw [Moment.ofRequest, seen] at among
        exact List.mem_singleton.mp among
    | program =>
        rw [Moment.ofRequest, Moment.ofProgram, found, seen] at among
        rcases outcome with failure | _ | tree
        · exact List.mem_singleton.mp among
        · exact List.mem_singleton.mp among
        · exact absurd rfl (nothing tree)

theorem Parser.repeats_of_error (held : parser.held = some (.error failure)) :
    parser.Repeats (Request.failed failure) := by
  have peeked : parser.peek = (some (.error failure), parser) := by
    unfold Lookahead.peek
    rw [held]
  have found : ∀ bound, parser.expression bound = (.error failure, parser) := by
    intro bound
    change Reading.run (.look _) parser = _
    rw [Reading.run, peeked]
  have nothing : ∀ tree, (.error failure : Except SyntaxError (Option Expression)) ≠
      .ok (some tree) := by
    intro tree same
    cases same
  apply repeats_of_expression found _ nothing ⟨fun _ => rfl, rfl⟩
  intro bound
  change Moment.ofReading (.look _) _ = _
  rw [Moment.ofReading, peeked]

theorem Parser.repeats_of_end (peeked : parser.peek = (none, parser)) :
    parser.Repeats Request.ended := by
  have found : ∀ bound, parser.expression bound = (.ok none, parser) := by
    intro bound
    change Reading.run (.look _) parser = _
    rw [Reading.run, peeked]
    rfl
  have nothing : ∀ tree, (.ok none : Except SyntaxError (Option Expression)) ≠
      .ok (some tree) := by
    intro tree same
    cases same
  apply repeats_of_expression found _ nothing ⟨fun _ => rfl, rfl⟩
  intro bound
  change Moment.ofReading (.look _) _ = _
  rw [Moment.ofReading, peeked]
  rfl

theorem Parser.Repeats.behind (repeats : parser.Repeats reply) (requests : List Request) :
    parser.behind requests = parser := by
  induction requests with
  | nil => rfl
  | cons request others ih =>
      have step : parser.behind (request :: others) = (parser.answer request).2.behind others := rfl
      rw [step, repeats.answer]
      exact ih

theorem Parser.Repeats.history (repeats : parser.Repeats reply) (requests : List Request) :
    ∀ moment ∈ Moment.history ⟨[], parser⟩ requests, moment = ⟨[], parser⟩ := by
  induction requests with
  | nil => exact fun moment among => List.mem_singleton.mp among
  | cons request others ih =>
      have still : Moment.after ⟨[], parser⟩ request = ⟨[], parser⟩ := by
        unfold Moment.after
        rw [List.getLastD_eq_getLast?]
        cases last : (Moment.ofRequest ⟨[], parser⟩ request).getLast? with
        | none => rfl
        | some moment => exact repeats.moments request moment (List.mem_of_getLast? last)
      intro moment among
      rw [Moment.history, still] at among
      rcases List.mem_cons.mp among with here | further
      · exact here
      · rcases List.mem_append.mp further with during | behind
        · exact repeats.moments request moment during
        · exact ih moment behind

end Repeats

/-! ### The fuse of the lexer -/

/-- The lexer of a parser that has met an error has nothing more to give. -/
def Parser.Fused (parser : Parser Lexer) : Prop :=
  ∀ failure : SyntaxError,
    parser.held = some (.error failure) ∨ parser.last = some (.error failure) →
      parser.source.failed = true

theorem Lexer.failed_of_pull {lexer after : Lexer} {answer : Option TokenItem}
    (pulled : Source.pull lexer = (answer, after)) :
    (lexer.failed = true → after.failed = true) ∧
      ∀ failure, answer = some (.error failure) → after.failed = true := by
  obtain ⟨cursor, failed⟩ := lexer
  cases failed with
  | true =>
      rw [pull_failed] at pulled
      cases pulled
      exact ⟨id, nofun⟩
  | false =>
      rcases read : cursor.token with ⟨failure | _ | found, behind⟩
      · rw [pull_of_error read] at pulled
        cases pulled
        exact ⟨fun _ => rfl, fun _ _ => rfl⟩
      · rw [pull_of_none read] at pulled
        cases pulled
        exact ⟨nofun, nofun⟩
      · rw [pull_of_token read] at pulled
        cases pulled
        exact ⟨nofun, nofun⟩

theorem Parser.keeps_fused : Keeps Parser.Fused where
  peek := by
    rintro ⟨lexer, held, taken, last⟩ fused
    cases held with
    | some item => exact fused
    | none =>
        rcases pulled : Source.pull lexer with ⟨answer, after⟩
        obtain ⟨still, met⟩ := Lexer.failed_of_pull pulled
        intro failure
        unfold Lookahead.peek
        dsimp only
        rw [pulled]
        rintro (onHold | given)
        · exact met failure onHold
        · exact still (fused failure (.inr given))
  next := by
    rintro ⟨lexer, held, taken, last⟩ fused
    cases held with
    | some item =>
        intro failure
        rintro (onHold | given)
        · cases onHold
        · exact fused failure (.inl given)
    | none =>
        rcases pulled : Source.pull lexer with ⟨_ | item, after⟩
        · obtain ⟨still, _⟩ := Lexer.failed_of_pull pulled
          intro failure
          unfold Lookahead.next
          dsimp only
          rw [pulled]
          rintro (onHold | given)
          · cases onHold
          · exact still (fused failure (.inr given))
        · obtain ⟨_, met⟩ := Lexer.failed_of_pull pulled
          intro failure
          unfold Lookahead.next
          dsimp only
          rw [pulled]
          rintro (onHold | given)
          · cases onHold
          · exact met failure given

theorem Parser.fused_ofString (source : String) :
    (Parser.ofSource (Lexer.ofString source)).Fused := by
  rintro failure (onHold | given)
  · cases onHold
  · cases given

theorem Parser.Fused.repeats {parser : Parser Lexer} {failure : SyntaxError}
    (fused : parser.Fused) (free : parser.held = none)
    (taken : parser.last = some (.error failure)) : parser.Repeats Request.ended := by
  apply Parser.repeats_of_end
  have failed := fused failure (.inr taken)
  obtain ⟨⟨cursor, flag⟩, held, count, last⟩ := parser
  cases free
  cases failed
  rfl

/-! ### Requests behind a lexical error -/

theorem Parser.behind_concat {σ : Type} [Source σ TokenItem] (parser : Parser σ)
    (before : List Request) (request : Request) :
    parser.behind (before ++ [request]) = ((parser.behind before).answer request).2 :=
  List.foldl_append

/-- Once the error of the lexer was an answer, the parser has the error on hold, and every
further answer is this error, or it has taken the error, and every further answer tells the
end. At every later moment it is as it was, so nothing more is pulled or given out. -/
theorem lexical_error_absorbs {source : String} {failure : SyntaxError} {before : List Request}
    {request : Request} (lexical : (tokensUntilError source).2 = some failure)
    (answered : (((Parser.ofSource (Lexer.ofString source)).behind before).answer request).1 =
      request.failed failure) :
    let parser := (Parser.ofSource (Lexer.ofString source)).behind (before ++ [request])
    ((parser.held = some (.error failure) ∨
      parser.held = none ∧ parser.last = some (.error failure)) ∧
    (parser.held = some (.error failure) ↔
      ∀ later next, ((parser.behind later).answer next).1 = next.failed failure) ∧
    (parser.held = none ∧ parser.last = some (.error failure) ↔
      ∀ later next, ((parser.behind later).answer next).1 = next.ended)) ∧
    ∀ later, ∀ moment ∈ Moment.history ⟨[], parser⟩ later, moment = ⟨[], parser⟩ := by
  intro parser
  have met : parser.Met failure := by
    have left := Parser.met_of_answer answered (isLexical_of_tokensUntilError lexical)
    rw [← Parser.behind_concat] at left
    exact left
  have fused : parser.Fused :=
    Parser.keeps_fused.behind (before ++ [request]) (Parser.fused_ofString source)
  have same : ∀ {reply : Request → Answer}, parser.Repeats reply →
      ∀ later next, ((parser.behind later).answer next).1 = reply next := by
    intro reply repeats later next
    rw [repeats.behind later, repeats.answer next]
  rcases met with onHold | ⟨free, taken⟩
  · have repeats := Parser.repeats_of_error onHold
    refine ⟨⟨.inl onHold, ⟨fun _ => same repeats, fun _ => onHold⟩, ?_⟩, repeats.history⟩
    constructor
    · rintro ⟨free, _⟩
      rw [onHold] at free
      cases free
    · intro ended
      exact absurd ((same repeats [] request).symm.trans (ended [] request))
        request.failed_ne_ended
  · have repeats := fused.repeats free taken
    refine ⟨⟨.inr ⟨free, taken⟩, ?_, ⟨fun _ => same repeats, fun _ => ⟨free, taken⟩⟩⟩,
      repeats.history⟩
    constructor
    · intro onHold
      rw [free] at onHold
      cases onHold
    · intro failed
      exact absurd ((failed [] request).symm.trans (same repeats [] request))
        request.failed_ne_ended

/-- A symbol that begins no lexeme is seen, and stays on hold. The same symbol in place of a
role is taken, and then nothing is left. -/
theorem lexical_error_absorbs_of_dollar :
    ((tokensUntilError "$").2 = some ⟨⟨0, 0⟩, .unexpectedSymbol '$'⟩ ∧
      (tokensUntilError "@ $").2 = some ⟨⟨0, 2⟩, .unexpectedSymbol '$'⟩) ∧
    (∀ later next, ((((Parser.ofSource (Lexer.ofString "$")).behind [.program]).behind
      later).answer next).1 = next.failed ⟨⟨0, 0⟩, .unexpectedSymbol '$'⟩) ∧
    ∀ later next, ((((Parser.ofSource (Lexer.ofString "@ $")).behind
      [.expression .lowest]).behind later).answer next).1 = next.ended := by
  have stray : (tokensUntilError "$").2 = some ⟨⟨0, 0⟩, .unexpectedSymbol '$'⟩ := by decide
  have role : (tokensUntilError "@ $").2 = some ⟨⟨0, 2⟩, .unexpectedSymbol '$'⟩ := by decide
  have answered : (((Parser.ofSource (Lexer.ofString "$")).behind []).answer .program).1 =
      Request.program.failed ⟨⟨0, 0⟩, .unexpectedSymbol '$'⟩ := rfl
  have answeredRole :
      (((Parser.ofSource (Lexer.ofString "@ $")).behind []).answer (.expression .lowest)).1 =
        (Request.expression .lowest).failed ⟨⟨0, 2⟩, .unexpectedSymbol '$'⟩ := rfl
  have seen := lexical_error_absorbs stray answered
  have taken := lexical_error_absorbs role answeredRole
  exact ⟨⟨stray, role⟩, seen.1.2.1.mp rfl, taken.1.2.2.mp ⟨rfl, rfl⟩⟩

end Shading
