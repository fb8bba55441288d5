import Shading.Proofs.CommandLine.Verbosity
import Shading.Proofs.Recording

/-!
The trace of a dump.

Asked twice to be verbose, a run writes every record. So what a dump of a program writes shows
in which order its tokens were pulled and its expressions completed.
-/

namespace Shading

namespace CommandLine

variable {source : String} {program : Program}

/-! ### Runs with all records -/

theorem written_trace (records : List Log.Record) :
    Log.written .trace records = records.map Log.Record.line := by
  unfold Log.written
  congr 1
  apply List.filter_eq_self.mpr
  intro record _
  cases record.level <;> rfl

theorem ofArguments_dump_trace {path : String} (file : NamesFile path) :
    Invocation.ofArguments ["-d", "-vv", path] = .ok ⟨.dump path, 2⟩ := by
  have apart : takeApart ["-d", "-vv", path] = .ok ⟨[.dump, .verbose, .verbose], [path]⟩ := by
    change ((takeApart [path]).map _).map _ = _
    rw [takeApart_file file]
    rfl
  rw [ofArguments_of_parts apart]
  rfl

theorem stderr_of_dump_trace {path : String} {around : Surroundings} {bytes : ByteArray}
    {arguments : List String} {further : Nat} (held : around.files path = .content bytes)
    (readable : String.fromUTF8? bytes = some source) (parsed : parse source = .ok program)
    (asked : Invocation.ofArguments arguments = .ok ⟨.dump path, further + 2⟩) :
    (run arguments around).stderr =
      (readRecord bytes.size path).line :: (Log.parsing source).2.map Log.Record.line := by
  have threshold : Log.Level.ofVerbosity (further + 2) = .trace := rfl
  unfold run Invocation.report
  rw [asked]
  dsimp only
  rw [threshold, held]
  unfold withText
  dsimp only
  rw [readable]
  dsimp only
  rw [reportTree_eq, parsed, written_trace, written_trace]
  rfl

/-- Where a dump with all records succeeds, it writes how the file was read, and then one record
for each token of the text and one for each expression of the program, both in order. In front
of the record of an expression whose last token is the one at `position` stand those of the
tokens up to the next one behind it. -/
theorem dump_traces_reading {path : String} {around : Surroundings} {bytes : ByteArray}
    (held : around.files path = .content bytes) (readable : String.fromUTF8? bytes = some source)
    (parsed : parse source = .ok program) :
    (NamesFile path → Invocation.ofArguments ["-d", "-vv", path] = .ok ⟨.dump path, 2⟩) ∧
    ∃ tokens, tokenize source = .ok tokens ∧
    ∀ arguments further, Invocation.ofArguments arguments = .ok ⟨.dump path, further + 2⟩ →
      ∃ records : List Log.Record,
        (run arguments around).stderr =
          (readRecord bytes.size path).line :: records.map Log.Record.line ∧
        (∀ record ∈ records, record.part = .lexer ∨ record.part = .parser) ∧
        Log.ofPart .lexer records = tokens.map Log.lexed ∧
        Log.ofPart .parser records = program.expressions.map Log.completed ∧
        ∀ index tree, program.expressions[index]? = some tree →
          (parserAfter source index).expression .lowest =
              (.ok (some tree), parserAfter source (index + 1)) ∧
          ∃ (position : Nat) (last : Token) (before behind : List Log.Record),
            (parserAfter source (index + 1)).taken = position + 1 ∧
            (parserAfter source (index + 1)).last = some (.ok last) ∧
            tokens[position]? = some last ∧
            records = before ++ Log.completed tree :: behind ∧
            Log.ofPart .parser before = (program.expressions.take index).map Log.completed ∧
            Log.ofPart .lexer before = (tokens.take (position + 2)).map Log.lexed := by
  refine ⟨ofArguments_dump_trace, (tokensUntilError source).1,
    tokenize_of_items (items_of_parse parsed), fun arguments further asked => ?_⟩
  obtain ⟨lexed, completed, placed⟩ := records_of_parse parsed
  have parts : ∀ record ∈ (Log.parsing source).2, record.part = .lexer ∨ record.part = .parser :=
    Log.parsing_records (fun _ => .inl rfl) (fun _ => .inr rfl) source
  refine ⟨(Log.parsing source).2, stderr_of_dump_trace held readable parsed asked, parts, lexed,
    completed, fun index tree found => ?_⟩
  obtain ⟨answered, position, last, counted, among, taken⟩ := answered_of_program parsed found
  obtain ⟨before, behind, split, trees, tokens⟩ := placed found
  rw [counted] at tokens
  exact ⟨answered, position, last, before, behind, counted, taken, among, split, trees, tokens⟩

def callThenResult : String := "f(); ret g()"

def callThenResultTrees : List Expression :=
  [.call "f" [] ⟨0, 0⟩, .result (.call "g" [] ⟨0, 9⟩) ⟨0, 5⟩]

/-- The semicolon is pulled before the call is complete, and behind the result nothing is. -/
theorem dump_traces_reading_of_callThenResult :
    ((Surroundings.only callThenResult).files "a.vx" = .content callThenResult.toUTF8 ∧
      String.fromUTF8? callThenResult.toUTF8 = some callThenResult ∧
      parse callThenResult = .ok ⟨callThenResultTrees⟩) ∧
    Invocation.ofArguments ["-d", "-vv", "a.vx"] = .ok ⟨.dump "a.vx", 2⟩ ∧
    (∃ (tokens : List Token) (records : List Log.Record),
      (run ["-d", "-vv", "a.vx"] (.only callThenResult)).stderr =
        (readRecord 12 "a.vx").line :: records.map Log.Record.line ∧
      Log.ofPart .lexer records = tokens.map Log.lexed ∧
      Log.ofPart .parser records = callThenResultTrees.map Log.completed) ∧
    (run ["-d", "-vv", "a.vx"] (.only callThenResult)).stderr =
      ["[DEBUG] [vixie] read 12 bytes from a.vx",
        "[TRACE] [vixie::parser::lexer] lexed identifier 'f' at 0:0",
        "[TRACE] [vixie::parser::lexer] lexed '(' at 0:1",
        "[TRACE] [vixie::parser::lexer] lexed ')' at 0:2",
        "[TRACE] [vixie::parser::lexer] lexed ';' at 0:3",
        "[DEBUG] [vixie::parser::parse] parsed top-level FunctionCall at 0:0",
        "[TRACE] [vixie::parser::lexer] lexed 'ret' at 0:5",
        "[TRACE] [vixie::parser::lexer] lexed identifier 'g' at 0:9",
        "[TRACE] [vixie::parser::lexer] lexed '(' at 0:10",
        "[TRACE] [vixie::parser::lexer] lexed ')' at 0:11",
        "[DEBUG] [vixie::parser::parse] parsed top-level Return at 0:5"] := by
  have held :
      (Surroundings.only callThenResult).files "a.vx" = .content callThenResult.toUTF8 := rfl
  have readable : String.fromUTF8? callThenResult.toUTF8 = some callThenResult := by rfl
  have parsed : parse callThenResult = .ok ⟨callThenResultTrees⟩ := by rfl
  obtain ⟨asks, tokens, _, traced⟩ := dump_traces_reading held readable parsed
  have asked := asks (.inr (by decide))
  obtain ⟨records, written, _, lexed, completed, _⟩ := traced _ 0 asked
  exact ⟨⟨held, readable, parsed⟩, asked, ⟨tokens, records, written, lexed, completed⟩, rfl⟩

end CommandLine

end Shading
