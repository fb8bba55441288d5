import Shading.Proofs.CommandLine.Modes

/-!
Verbosity only adds records.

Asked to be more verbose, a run does the same and writes more about it. A record can be
told from every other line by how it begins, so leaving out what the quieter run would not
have written gives the lines of the quieter run back.
-/

namespace Shading

/-! ### Lines and their levels -/

namespace Log

variable {low high threshold : Level} {line : String}

theorem Level.tag_injective {level other : Level} (same : level.tag = other.tag) :
    level = other := by
  revert same
  cases level <;> cases other <;> decide

theorem Record.line_begin (record : Record) :
    record.line.toList.take 8 = record.level.tag.toList := by
  have width : record.level.tag.toList.length = 8 := by cases record.level <;> rfl
  unfold Record.line
  rw [String.append_assoc, String.append_assoc, String.append_assoc, String.toList_append,
    ← width, List.take_left]

theorem Record.level_of_line {record other : Record} (same : record.line = other.line) :
    record.level = other.level := by
  apply Level.tag_injective
  rw [← String.toList_inj, ← record.line_begin, same, other.line_begin]

theorem Record.line_head (record : Record) : record.line.toList.head? = some '[' := by
  have bracket : record.level.tag.toList.head? = some '[' := by cases record.level <;> rfl
  rw [← record.line_begin, List.head?_take, if_neg (by decide)] at bracket
  exact bracket

theorem Level.ofVerbosity_mono (verbosity extra : Nat) :
    (ofVerbosity verbosity).rank ≤ (ofVerbosity (verbosity + extra)).rank := by
  have further : ∀ count, (ofVerbosity count).rank ≤ (ofVerbosity (count + 1)).rank
    | 0 => by decide
    | 1 => by decide
    | _ + 2 => Nat.le_refl _
  induction extra with
  | zero => exact Nat.le_refl _
  | succ extra ih => exact Nat.le_trans ih (further _)

theorem Level.warn_passes (verbosity : Nat) : warn.passes (ofVerbosity verbosity) = true := by
  have above := ofVerbosity_mono 0 verbosity
  rw [Nat.zero_add] at above
  exact decide_eq_true above

theorem Level.passes_mono {level : Level} (louder : low.rank ≤ high.rank)
    (passes : level.passes low = true) : level.passes high = true :=
  decide_eq_true (Nat.le_trans (of_decide_eq_true passes) louder)

/-! ### Leaving out records -/

/-- The line is that of a detail which a threshold does not pass. -/
def Silences (threshold : Level) (line : String) : Prop :=
  ∃ record : Record, record.IsDetail ∧ record.level.passes threshold = false ∧ record.line = line

/-- The lines of a run and those of a quieter one at a threshold: the details that the threshold
does not pass are left out, and every other line stays where it is. -/
inductive Quieted (threshold : Level) : List String → List String → Prop where
  | nil : Quieted threshold [] []
  | kept {line : String} {loud quiet : List String} (stays : ¬ Silences threshold line)
      (others : Quieted threshold loud quiet) : Quieted threshold (line :: loud) (line :: quiet)
  | omitted {line : String} {loud quiet : List String} (silenced : Silences threshold line)
      (others : Quieted threshold loud quiet) : Quieted threshold (line :: loud) quiet

theorem stays_of_head (other : line.toList.head? ≠ some '[') : ¬ Silences threshold line := by
  rintro ⟨record, _, _, rfl⟩
  exact other record.line_head

theorem Record.stays {record : Record} (passes : record.level.passes threshold = true) :
    ¬ Silences threshold record.line := by
  rintro ⟨found, _, silent, same⟩
  rw [Record.level_of_line same, passes] at silent
  cases silent

theorem Quieted.append {loud quiet laterLoud laterQuiet : List String}
    (first : Quieted threshold loud quiet) (second : Quieted threshold laterLoud laterQuiet) :
    Quieted threshold (loud ++ laterLoud) (quiet ++ laterQuiet) := by
  induction first with
  | nil => exact second
  | kept stays _ ih => exact .kept stays ih
  | omitted silenced _ ih => exact .omitted silenced ih

theorem quieted_line (plain : line.toList.head? ≠ some '[') : Quieted threshold [line] [line] :=
  .kept (stays_of_head plain) .nil

theorem quieted_lines {lines : List String}
    (plain : ∀ line ∈ lines, line.toList.head? ≠ some '[') : Quieted threshold lines lines := by
  induction lines with
  | nil => exact .nil
  | cons line others ih =>
      obtain ⟨first, rest⟩ := List.forall_mem_cons.mp plain
      exact .kept (stays_of_head first) (ih rest)

theorem quieted_written {records : List Record} (louder : low.rank ≤ high.rank)
    (known : ∀ record ∈ records, record.IsDetail ∨ record.level.passes low = true) :
    Quieted low (written high records) (written low records) := by
  unfold written
  induction records with
  | nil => exact .nil
  | cons record others ih =>
      obtain ⟨first, rest⟩ := List.forall_mem_cons.mp known
      rw [List.filter_cons, List.filter_cons]
      by_cases passes : record.level.passes low = true
      · rw [if_pos passes, if_pos (Level.passes_mono louder passes)]
        exact .kept (Record.stays passes) (ih rest)
      · rw [if_neg passes]
        -- What the lower threshold does not pass is written by the louder run alone, if at all.
        by_cases told : record.level.passes high = true
        · rw [if_pos told]
          have detail := first.resolve_right passes
          exact .omitted ⟨record, detail, Bool.eq_false_iff.mpr passes, rfl⟩ (ih rest)
        · rw [if_neg told]
          exact ih rest

end Log

/-! ### Messages -/

theorem SyntaxError.message_head (failure : SyntaxError) :
    failure.message.toList.head? ≠ some '[' := by
  unfold message
  rw [String.append_assoc, String.append_assoc, String.append_assoc, String.append_assoc,
    String.toList_append]
  exact fun bracket => by cases bracket

namespace CommandLine

theorem errorLine_head (reason : String) : (errorLine reason).toList.head? ≠ some '[' := by
  unfold errorLine
  rw [String.toList_append]
  exact fun bracket => by cases bracket

theorem usageLines_head (program : String) :
    ∀ line ∈ usageLines program, line.toList.head? ≠ some '[' := by
  refine List.forall_mem_cons.mpr ⟨?_, by decide⟩
  rw [String.append_assoc, String.toList_append]
  exact fun bracket => by cases bracket

/-! ### Reports at two thresholds -/

/-- A report is that of a quieter run with details added: what the threshold of the quieter run
does not pass, and nothing else. -/
structure Report.AddsDetails (threshold : Log.Level) (loud quiet : Report) : Prop where
  code : loud.code = quiet.code
  stdout : loud.stdout = quiet.stdout
  stderr : Log.Quieted threshold loud.stderr quiet.stderr

theorem Report.addsDetails_of_quieted {threshold : Log.Level} {loud quiet : List String}
    (code : Nat) (stdout : String) (lines : Log.Quieted threshold loud quiet) :
    Report.AddsDetails threshold ⟨code, stdout, loud⟩ ⟨code, stdout, quiet⟩ :=
  ⟨rfl, rfl, lines⟩

theorem Report.addsDetails_self {threshold : Log.Level} {report : Report}
    (plain : ∀ line ∈ report.stderr, line.toList.head? ≠ some '[') :
    report.AddsDetails threshold report :=
  ⟨rfl, rfl, Log.quieted_lines plain⟩

section Reports

variable {low high : Log.Level} (louder : low.rank ≤ high.rank)

include louder

theorem quieted_details {records : List Log.Record}
    (details : ∀ record ∈ records, record.IsDetail) :
    Log.Quieted low (Log.written high records) (Log.written low records) :=
  Log.quieted_written louder fun record among => .inl (details record among)

theorem reportTokens_addsDetails (source : String) :
    (reportTokens high source).AddsDetails low (reportTokens low source) := by
  have records := quieted_details louder (Log.lexing_details source)
  refine Report.addsDetails_of_quieted _ _ (records.append (Log.quieted_lines ?_))
  intro line member
  obtain ⟨failure, _, rfl⟩ := Option.map_eq_some_iff.mp (Option.mem_toList.mp member)
  exact failure.message_head

theorem reportTree_addsDetails (source : String) :
    (reportTree high source).AddsDetails low (reportTree low source) := by
  have records := quieted_details louder (Log.parsing_details source)
  rw [reportTree_eq, reportTree_eq]
  cases parse source with
  | ok program => exact Report.addsDetails_of_quieted _ _ records
  | error failure =>
      exact Report.addsDetails_of_quieted _ _
        (records.append (Log.quieted_line failure.message_head))

/-- A terminal knows nothing of the threshold, and a warning is written at every threshold
that can be asked for. -/
theorem reportView_addsDetails (warns : Log.Level.warn.passes low = true)
    (terminal : Session → Showing) (source : String) :
    (reportView terminal high source).AddsDetails low (reportView terminal low source) := by
  have known : ∀ record ∈ (Log.lexing source).2 ++ (Log.parsing source).2 ++
      viewerWarnings (Session.ofSource source),
      record.IsDetail ∨ record.level.passes low = true := by
    intro record among
    rcases List.mem_append.mp among with details | warning
    · rcases List.mem_append.mp details with lexed | parsed
      · exact .inl (Log.lexing_details source record lexed)
      · exact .inl (Log.parsing_details source record parsed)
    · obtain ⟨failure, _, rfl⟩ := Option.map_eq_some_iff.mp (Option.mem_toList.mp warning)
      exact .inr warns
  have records := Log.quieted_written louder known
  unfold reportView
  dsimp only
  cases (terminal (Session.ofSource source)).ending with
  | error reason =>
      exact Report.addsDetails_of_quieted _ _
        (records.append (Log.quieted_line (errorLine_head reason)))
  | ok failure =>
      refine Report.addsDetails_of_quieted _ _ (records.append (Log.quieted_lines ?_))
      intro line member
      obtain ⟨reason, _, rfl⟩ := Option.map_eq_some_iff.mp (Option.mem_toList.mp member)
      exact errorLine_head reason

theorem withText_addsDetails {report : Log.Level → String → Report} (path : String)
    (state : FileState)
    (does : ∀ source, (report high source).AddsDetails low (report low source)) :
    (withText high path state report).AddsDetails low (withText low path state report) := by
  have unread : ∀ reason, (unreadable reason).AddsDetails low (unreadable reason) :=
    fun reason => Report.addsDetails_of_quieted _ _ (Log.quieted_line (errorLine_head reason))
  unfold withText
  cases state with
  | missing => exact unread _
  | unreadable reason => exact unread reason
  | content bytes =>
      dsimp only
      cases String.fromUTF8? bytes with
      | none => exact unread _
      | some source =>
          obtain ⟨code, stdout, stderr⟩ := does source
          refine ⟨code, stdout, .append (Log.quieted_written louder ?_) stderr⟩
          intro record member
          cases List.mem_singleton.mp member
          exact .inl (.inl rfl)

end Reports

theorem report_addsDetails (task : Task) (verbosity extra : Nat) (around : Surroundings) :
    (Invocation.report ⟨task, verbosity + extra⟩ around).AddsDetails (.ofVerbosity verbosity)
      (Invocation.report ⟨task, verbosity⟩ around) := by
  have louder := Log.Level.ofVerbosity_mono verbosity extra
  cases task with
  | help => exact Report.addsDetails_self (List.forall_mem_nil _)
  | tokens path => exact withText_addsDetails louder path _ (reportTokens_addsDetails louder)
  | dump path => exact withText_addsDetails louder path _ (reportTree_addsDetails louder)
  | view path =>
      exact withText_addsDetails louder path _
        (reportView_addsDetails louder (Log.Level.warn_passes verbosity) around.terminal)

/-! ### Asking for more -/

def Invocation.louder (extra : Nat) (invocation : Invocation) : Invocation :=
  { invocation with verbosity := invocation.verbosity + extra }

theorem repeatedFlag?_verbose (flags : List Flag) :
    repeatedFlag? (.verbose :: flags) = repeatedFlag? flags := by
  unfold repeatedFlag?
  congr 1
  funext flag
  by_cases verbose : flag = .verbose
  · subst verbose
    rfl
  · rw [List.count_cons_of_ne (Ne.symm verbose)]

theorem task_verbose (arguments : Arguments) :
    (arguments.withFlags [.verbose]).task = arguments.task := rfl

theorem ofArguments_of_parts {arguments : List String} {parts : Arguments}
    (apart : takeApart arguments = .ok parts) :
    Invocation.ofArguments arguments =
      match repeatedFlag? parts.flags with
      | some flag => .error (.repeated flag)
      | none => parts.task.map fun task => ⟨task, parts.flags.count .verbose⟩ := by
  unfold Invocation.ofArguments
  rw [apart]
  change (match repeatedFlag? parts.flags with | some _ => _ | none => _) = _
  cases repeatedFlag? parts.flags with
  | some flag => rfl
  | none => cases parts.task <;> rfl

theorem ofArguments_verbose (arguments : List String) :
    Invocation.ofArguments ("-v" :: arguments) =
      (Invocation.ofArguments arguments).map (Invocation.louder 1) := by
  have apart : takeApart ("-v" :: arguments) =
      (takeApart arguments).map (Arguments.withFlags [.verbose]) := rfl
  cases taken : takeApart arguments with
  | error failure =>
      rw [taken] at apart
      unfold Invocation.ofArguments
      rw [apart, taken]
      rfl
  | ok parts =>
      have flags : (parts.withFlags [.verbose]).flags = .verbose :: parts.flags := rfl
      rw [taken] at apart
      rw [ofArguments_of_parts apart, ofArguments_of_parts taken, task_verbose, flags,
        repeatedFlag?_verbose, List.count_cons_self]
      cases repeatedFlag? parts.flags with
      | some flag => rfl
      | none => cases parts.task <;> rfl

theorem ofArguments_moreVerbose (extra : Nat) (arguments : List String) :
    Invocation.ofArguments (List.replicate extra "-v" ++ arguments) =
      (Invocation.ofArguments arguments).map (Invocation.louder extra) := by
  induction extra with
  | zero =>
      change Invocation.ofArguments arguments = _
      cases Invocation.ofArguments arguments <;> rfl
  | succ extra ih =>
      rw [List.replicate_succ, List.cons_append, ofArguments_verbose, ih]
      cases Invocation.ofArguments arguments <;> rfl

/-- The threshold for records that arguments ask for. Unusable arguments leave it where it
is without any. -/
def thresholdOf (arguments : List String) : Log.Level :=
  match Invocation.ofArguments arguments with
  | .ok invocation => .ofVerbosity invocation.verbosity
  | .error _ => .ofVerbosity 0

/-- Whatever the arguments, the files and the terminal, asking in front for more records changes
neither how a run ends nor what it prints, and leaving out the records that were not asked for
before gives back what it wrote. -/
theorem verbosity_adds_details (arguments : List String) (around : Surroundings) (extra : Nat) :
    (run (List.replicate extra "-v" ++ arguments) around).AddsDetails (thresholdOf arguments)
      (run arguments around) := by
  unfold run thresholdOf
  rw [ofArguments_moreVerbose]
  cases Invocation.ofArguments arguments with
  | ok invocation => exact report_addsDetails invocation.task invocation.verbosity extra around
  | error failure =>
      apply Report.addsDetails_self
      exact List.forall_mem_cons.mpr ⟨errorLine_head _, usageLines_head _⟩

end CommandLine

end Shading
