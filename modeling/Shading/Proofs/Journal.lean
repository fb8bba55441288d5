import Shading.Log
import Shading.Proofs.Invariants

/-!
Reading with a journal.

A record is written at each pull and at each expression that is complete. Reading does not
depend on what is written: to leave the journal out commutes with every step, so texts have the
same items and the same programs with and without one.
-/

namespace Shading

theorem Log.Journal.pull_eq {σ : Type} [Source σ TokenItem] (source : σ) (records : List Record) :
    Source.pull (Journal.mk source records) =
      ((Source.pull source).1, Journal.write ⟨(Source.pull source).2, records⟩
        ((Source.pull source).1.bind ofItem?)) :=
  rfl

/-- The same parser without its journal. -/
def Parser.plain {σ : Type} (parser : Parser (Log.Journal σ)) : Parser σ :=
  ⟨parser.source.source, parser.held, parser.taken, parser.last⟩

namespace Parser

variable {σ α : Type} [Source σ TokenItem]

theorem peek_plain (parser : Parser (Log.Journal σ)) :
    parser.plain.peek = (parser.peek.1, plain parser.peek.2) := by
  obtain ⟨journal, held, taken, last⟩ := parser
  cases held <;> rfl

theorem next_plain (parser : Parser (Log.Journal σ)) :
    parser.plain.next = (parser.next.1, plain parser.next.2) := by
  obtain ⟨⟨source, records⟩, held, taken, last⟩ := parser
  cases held with
  | some item => rfl
  | none =>
      unfold Lookahead.next plain
      dsimp only
      rw [Log.Journal.pull_eq]
      rcases Source.pull source with ⟨_ | item, rest⟩ <;> rfl

theorem run_plain (reading : Reading α) (parser : Parser (Log.Journal σ)) :
    reading.run parser.plain = ((reading.run parser).1, plain (reading.run parser).2) := by
  induction reading generalizing parser with
  | done value => rfl
  | fail failure => rfl
  | failAtLast fault => rfl
  | look next ih =>
      rw [Reading.run, Reading.run, peek_plain]
      rcases parser.peek with ⟨_ | ⟨failure | token⟩, after⟩
      · exact ih none after
      · rfl
      · exact ih (some token) after
  | take next ih =>
      rw [Reading.run, Reading.run, next_plain]
      rcases parser.next with ⟨_ | ⟨failure | token⟩, after⟩
      · rfl
      · rfl
      · exact ih token after

theorem expression_plain (parser : Parser (Log.Journal σ)) (bound : Precedence) :
    parser.plain.expression bound =
      ((parser.expression bound).1, plain (parser.expression bound).2) :=
  run_plain _ parser

theorem programWithin_plain (limit : Nat) (parser : Parser (Log.Journal σ)) :
    programWithin silent limit parser.plain =
      ((programWithin Log.Journal.complete limit parser).1,
        plain (programWithin Log.Journal.complete limit parser).2) := by
  induction limit generalizing parser with
  | zero => rfl
  | succ limit ih =>
      have first := parser.expression_plain .lowest
      have step := programWithin_step Log.Journal.complete limit parser
      generalize programWithin Log.Journal.complete (limit + 1) parser = answered at step
      cases step with
      | failed parsed | ended parsed | stray parsed =>
          rw [parsed] at first
          rw [programWithin, first]
      | @element tree after parsed solid =>
          rw [parsed] at first
          rw [programWithin_some first solid]
          have others := ih (after.noting Log.Journal.complete tree)
          exact congrArg (fun answered => (answered.1.map (tree :: ·), answered.2)) others

theorem program_plain (parser : Parser (Log.Journal σ)) :
    parser.plain.program =
      ((parser.programNoting Log.Journal.complete).1,
        plain (parser.programNoting Log.Journal.complete).2) :=
  congrArg (fun answered => (answered.1.map Program.mk, answered.2))
    (programWithin_plain (parser.remaining + 1) parser)

end Parser

namespace Log

variable {σ : Type} [Source σ TokenItem] {holds : Record → Prop}

/-! ### The journal of a lexer -/

theorem drainWithin_journal (limit : Nat) (journal : Journal σ) :
    Source.drainWithin limit journal =
      let (items, source) := Source.drainWithin limit journal.source
      (items, ⟨source, journal.records ++ items.filterMap ofItem?⟩) := by
  induction limit generalizing journal with
  | zero => exact congrArg (fun records => ([], Journal.mk _ records)) (List.append_nil _).symm
  | succ limit ih =>
      obtain ⟨source, records⟩ := journal
      rw [Source.drainWithin, Source.drainWithin, Journal.pull_eq]
      rcases Source.pull source with ⟨_ | item, rest⟩
      · rfl
      · dsimp only [Option.bind_some]
        rw [ih]
        dsimp only [Journal.write]
        rw [List.append_assoc]
        cases item <;> rfl

theorem lexing_eq (source : String) :
    lexing source = (Source.items (Lexer.ofString source),
      (Source.items (Lexer.ofString source)).filterMap ofItem?) := by
  have drained := drainWithin_journal (Source.size (Lexer.ofString source) + 1)
    (Journal.ofSource (Lexer.ofString source))
  unfold lexing Source.items Source.drain
  exact congrArg (fun drained => (drained.1, drained.2.records)) drained

/-! ### The journal of a parser -/

/-- Parsing with a journal gives what parsing without one gives. -/
theorem parsing_fst (source : String) : (parsing source).1 = parse source :=
  (congrArg Prod.fst (Parser.program_plain
    (Parser.ofSource (Journal.ofSource (Lexer.ofString source))))).symm

theorem keeps_records (tokens : ∀ token, holds (lexed token)) :
    Keeps fun parser : Parser (Journal σ) => ∀ record ∈ parser.source.records, holds record := by
  have pull : ∀ {journal : Journal σ}, (∀ record ∈ journal.records, holds record) →
      ∀ record ∈ (Source.pull journal).2.records, holds record := by
    intro journal kept record among
    rcases List.mem_append.mp among with before | written
    · exact kept record before
    · obtain ⟨item, _, told⟩ := Option.bind_eq_some_iff.mp (Option.mem_toList.mp written)
      cases item with
      | error failure => cases told
      | ok token =>
          cases told
          exact tokens token
  constructor
  · intro parser kept
    obtain ⟨journal, held, taken, last⟩ := parser
    cases held with
    | some item => exact kept
    | none => exact pull kept
  · intro parser kept
    obtain ⟨journal, held, taken, last⟩ := parser
    cases held with
    | some item => exact kept
    | none =>
        have pulled := pull kept
        unfold Lookahead.next
        dsimp only
        generalize Source.pull journal = answered at pulled
        rcases answered with ⟨_ | item, rest⟩ <;> exact pulled

theorem parsing_records (tokens : ∀ token, holds (lexed token))
    (trees : ∀ tree, holds (completed tree)) (source : String) :
    ∀ record ∈ (parsing source).2, holds record := by
  let parser := Parser.ofSource (Journal.ofSource (Lexer.ofString source))
  have noted : ∀ {parser : Parser (Journal Lexer)} (tree : Expression),
      (∀ record ∈ parser.source.records, holds record) →
        ∀ record ∈ (parser.noting Journal.complete tree).source.records, holds record := by
    intro parser tree kept record among
    rcases List.mem_append.mp among with before | written
    · exact kept record before
    · cases List.mem_singleton.mp written
      exact trees tree
  have begun : ∀ record ∈ parser.source.records, holds record := nofun
  exact (keeps_records tokens).programWithin noted (parser.remaining + 1) begun

end Log

end Shading
