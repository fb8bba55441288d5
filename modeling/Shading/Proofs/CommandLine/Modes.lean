import Shading.CommandLine.Run
import Shading.Proofs.Journal
import Shading.Proofs.Laziness
import Shading.Proofs.Lexer.Positions

/-!
The token stream and the tree of one file.

Both are reports of a run without records, and neither run knows of the other. That
they agree rests on what parsing makes of lexical errors, and on the order of places.
-/

namespace Shading

variable {source : String} {failure : SyntaxError}

/-! ### Records of a quiet run -/

namespace Log

/-- A record of what happened, and not of what went wrong. -/
def Record.IsDetail (record : Record) : Prop := record.level = .debug ∨ record.level = .trace

theorem written_details {records : List Record} (details : ∀ record ∈ records, record.IsDetail) :
    written .warn records = [] := by
  unfold written
  rw [List.map_eq_nil_iff, List.filter_eq_nil_iff]
  intro record member
  rcases details record member with level | level
  · rw [level]
    decide
  · rw [level]
    decide

theorem lexing_details (source : String) : ∀ record ∈ (lexing source).2, record.IsDetail := by
  intro record among
  rw [lexing_eq] at among
  obtain ⟨item, _, told⟩ := List.mem_filterMap.mp among
  cases item with
  | error failure => cases told
  | ok token =>
      cases told
      exact .inr rfl

theorem parsing_details (source : String) : ∀ record ∈ (parsing source).2, record.IsDetail :=
  parsing_records (fun _ => .inr rfl) (fun _ => .inl rfl) source

theorem written_lexing (source : String) : written .warn (lexing source).2 = [] :=
  written_details (lexing_details source)

theorem written_parsing (source : String) : written .warn (parsing source).2 = [] :=
  written_details (parsing_details source)

end Log

/-! ### Lexical errors in parsing -/

theorem complete_of_parse {program : Program} (parsed : parse source = .ok program) :
    (tokensUntilError source).2 = none := by
  cases failed : (tokensUntilError source).2 with
  | none => rfl
  | some failure =>
      obtain ⟨found, refused⟩ := Parser.program_of_error (item_of_failure failed)
      rw [Parser.parse_eq_items, refused] at parsed
      cases parsed

/-- Where the lexer fails, parsing fails with the same error or before it. -/
theorem parse_error_until (failed : (tokensUntilError source).2 = some failure) :
    parse source = .error failure ∨
      ∃ earlier, parse source = .error earlier ∧ earlier.location < failure.location := by
  cases parsed : parse source with
  | ok program =>
      rw [complete_of_parse parsed] at failed
      cases failed
  | error found =>
      rcases Parser.parse_error_cases parsed with member | ⟨token, member, place⟩
      · rw [failure_of_item member] at failed
        cases failed
        exact .inl rfl
      · have before := token_before_failure (token_of_item member) failed
        rw [← place] at before
        exact .inr ⟨found, rfl, before⟩

namespace CommandLine

/-! ### Arguments -/

/-- An argument that is no option: a single dash, or anything that begins otherwise. -/
def NamesFile (argument : String) : Prop :=
  argument.toList = ['-'] ∨ argument.toList.head? ≠ some '-'

/-- The arguments ask for a task and for no records. -/
def Asks (arguments : List String) (task : Task) : Prop :=
  Invocation.ofArguments arguments = .ok ⟨task, 0⟩

theorem NamesFile.begin {path : String} {letter : Char} {letters : List Char}
    (file : NamesFile path) : path.toList ≠ '-' :: letter :: letters := by
  intro option
  unfold NamesFile at file
  rw [option] at file
  rcases file with dash | other
  · cases dash
  · exact other rfl

theorem takeApart_file {path : String} (file : NamesFile path) :
    takeApart [path] = .ok ⟨[], [path]⟩ := by
  unfold takeApart
  split
  · rename_i option
    exact absurd option file.begin
  · rename_i option
    exact absurd option file.begin
  · rename_i option
    exact absurd option file.begin
  · rfl

theorem asks_of_namesFile {path : String} (file : NamesFile path) :
    Asks ["-t", path] (.tokens path) ∧ Asks ["-d", path] (.dump path) := by
  have apart := takeApart_file file
  have tokens : takeApart ["-t", path] = .ok ⟨[.tokens], [path]⟩ := by
    change (takeApart [path]).map _ = _
    rw [apart]
    rfl
  have dump : takeApart ["-d", path] = .ok ⟨[.dump], [path]⟩ := by
    change (takeApart [path]).map _ = _
    rw [apart]
    rfl
  unfold Asks Invocation.ofArguments
  rw [tokens, dump]
  exact ⟨rfl, rfl⟩

/-! ### Reports in parts -/

theorem reportTokens_eq (threshold : Log.Level) (source : String) :
    reportTokens threshold source =
      { code := if (tokensUntilError source).2.isSome then syntaxCode else 0
        stdout := linesText ((tokensUntilError source).1.map Token.text)
        stderr := Log.written threshold (Log.lexing source).2 ++
          ((tokensUntilError source).2.map SyntaxError.message).toList } := by
  unfold reportTokens
  rw [Log.lexing_eq]
  rfl

theorem reportTree_eq (threshold : Log.Level) (source : String) :
    reportTree threshold source =
      match parse source with
      | .ok program => ⟨0, program.tree true, Log.written threshold (Log.parsing source).2⟩
      | .error failure =>
        ⟨syntaxCode, "", Log.written threshold (Log.parsing source).2 ++ [failure.message]⟩ := by
  rw [← Log.parsing_fst]
  rfl

/-! ### Runs without records -/

section Runs

variable {path : String} {around : Surroundings} {bytes : ByteArray} {arguments : List String}

theorem run_of_asks {task : Task} {report : Log.Level → String → Report}
    (asks : Asks arguments task) (held : around.files path = .content bytes)
    (readable : String.fromUTF8? bytes = some source)
    (does : Invocation.report ⟨task, 0⟩ around = withText .warn path (around.files path) report) :
    run arguments around = report .warn source := by
  unfold run
  rw [show Invocation.ofArguments arguments = _ from asks]
  dsimp only
  rw [does, held]
  unfold withText
  dsimp only
  rw [readable]
  have quiet : Log.written .warn [readRecord bytes.size path] = [] := rfl
  dsimp only
  rw [quiet]
  rfl

theorem run_tokens (asks : Asks arguments (.tokens path))
    (held : around.files path = .content bytes)
    (readable : String.fromUTF8? bytes = some source) :
    run arguments around =
      { code := if (tokensUntilError source).2.isSome then syntaxCode else 0
        stdout := linesText ((tokensUntilError source).1.map Token.text)
        stderr := ((tokensUntilError source).2.map SyntaxError.message).toList } := by
  rw [run_of_asks asks held readable rfl, reportTokens_eq, Log.written_lexing, List.nil_append]

theorem run_dump (asks : Asks arguments (.dump path)) (held : around.files path = .content bytes)
    (readable : String.fromUTF8? bytes = some source) :
    run arguments around =
      match parse source with
      | .ok program => ⟨0, program.tree true, []⟩
      | .error failure => ⟨syntaxCode, "", [failure.message]⟩ := by
  rw [run_of_asks asks held readable rfl, reportTree_eq, Log.written_parsing]
  rfl

end Runs

/-- On a readable file, and without records: the tokens before the first lexical error are
printed, and that error is told; a program is printed as its tree with places, or its error is
told and nothing is printed. So a file with a tree has tokens up to its end, and a lexical
error ends both runs, the second one perhaps with an error before it. -/
theorem tokens_and_tree_agree {path : String} {around : Surroundings} {bytes : ByteArray}
    {source : String} (held : around.files path = .content bytes)
    (readable : String.fromUTF8? bytes = some source) :
    (NamesFile path → Asks ["-t", path] (.tokens path) ∧ Asks ["-d", path] (.dump path)) ∧
    ∀ listing dumping, Asks listing (.tokens path) → Asks dumping (.dump path) →
      (run listing around =
        match tokensUntilError source with
        | (tokens, none) => ⟨0, linesText (tokens.map Token.text), []⟩
        | (tokens, some failure) => ⟨2, linesText (tokens.map Token.text), [failure.message]⟩) ∧
      (run dumping around =
        match parse source with
        | .ok program => ⟨0, program.tree true, []⟩
        | .error failure => ⟨2, "", [failure.message]⟩) ∧
      ((run dumping around).code = 0 → (run listing around).code = 0) ∧
      ((run listing around).code = 2 → ∃ failure,
        (tokensUntilError source).2 = some failure ∧
        (run listing around).stderr = [failure.message] ∧ (run dumping around).code = 2 ∧
          ((run dumping around).stderr = [failure.message] ∨
            ∃ earlier, parse source = .error earlier ∧ earlier.location < failure.location ∧
              (run dumping around).stderr = [earlier.message])) := by
  refine ⟨asks_of_namesFile, fun listing dumping lists dumps => ?_⟩
  rw [run_tokens lists held readable, run_dump dumps held readable]
  cases cut : tokensUntilError source with
  | mk tokens ending =>
  have second : (tokensUntilError source).2 = ending := congrArg Prod.snd cut
  refine ⟨?_, rfl, ?_, ?_⟩
  · cases ending <;> rfl
  · intro fine
    cases parsed : parse source with
    | ok program =>
        rw [complete_of_parse parsed] at second
        subst second
        rfl
    | error failure =>
        rw [parsed] at fine
        cases fine
  · intro failed
    cases ending with
    | none => cases failed
    | some failure =>
        refine ⟨failure, rfl, rfl, ?_⟩
        rcases parse_error_until second with same | ⟨earlier, refused, before⟩
        · rw [same]
          exact ⟨rfl, .inl rfl⟩
        · rw [refused]
          exact ⟨rfl, .inr ⟨earlier, rfl, before, rfl⟩⟩

/-- A command that finds one text under every path, and a terminal that shows nothing. -/
def Surroundings.only (source : String) : Surroundings :=
  ⟨"vixie", fun _ => .content source.toUTF8, fun _ => ⟨"", .ok none⟩⟩

def strayClosing : String := ") $"

def bareCall : String := "f()"

theorem tokens_and_tree_agree_of_strayClosing :
    ((Surroundings.only strayClosing).files "a.vx" = .content strayClosing.toUTF8 ∧
      String.fromUTF8? strayClosing.toUTF8 = some strayClosing ∧
      (Surroundings.only bareCall).files "a.vx" = .content bareCall.toUTF8 ∧
      String.fromUTF8? bareCall.toUTF8 = some bareCall) ∧
    run ["-t", "a.vx"] (.only strayClosing) =
      ⟨2, "1:1 ')'\n", ["Parse error at line 1, column 3: unexpected symbol '$'"]⟩ ∧
    run ["-d", "a.vx"] (.only strayClosing) =
      ⟨2, "", ["Parse error at line 1, column 1: unexpected token ')'"]⟩ ∧
    run ["-t", "a.vx"] (.only bareCall) =
      ⟨0, "1:1 identifier 'f'\n1:2 '('\n1:3 ')'\n", []⟩ ∧
    run ["-d", "a.vx"] (.only bareCall) =
      ⟨0, "Program\n└── FunctionCall \"f\" (no arguments) @1:1\n", []⟩ := by
  have strayHeld : (Surroundings.only strayClosing).files "a.vx" =
      .content strayClosing.toUTF8 := rfl
  have strayReadable : String.fromUTF8? strayClosing.toUTF8 = some strayClosing := by rfl
  have callHeld : (Surroundings.only bareCall).files "a.vx" = .content bareCall.toUTF8 := rfl
  have callReadable : String.fromUTF8? bareCall.toUTF8 = some bareCall := by rfl
  obtain ⟨asks, strays⟩ := tokens_and_tree_agree strayHeld strayReadable
  obtain ⟨_, calls⟩ := tokens_and_tree_agree callHeld callReadable
  obtain ⟨lists, dumps⟩ := asks (.inr (by decide))
  obtain ⟨strayListed, strayDumped, _, _⟩ := strays _ _ lists dumps
  obtain ⟨callListed, callDumped, _, _⟩ := calls _ _ lists dumps
  exact ⟨⟨strayHeld, strayReadable, callHeld, callReadable⟩, strayListed.trans rfl,
    strayDumped.trans rfl, callListed.trans rfl, callDumped.trans rfl⟩

end CommandLine

end Shading
