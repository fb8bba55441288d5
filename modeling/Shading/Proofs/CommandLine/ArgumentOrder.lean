import Shading.Proofs.CommandLine.Verbosity

/-!
The order of arguments.

Unless a double dash ends the options, every argument is taken apart by itself. In another
order the same flags are given and the same files named, and what is made of them counts the
flags and looks for the only file. Which usage error is told may depend on the order, but not
whether there is one.
-/

namespace Shading.CommandLine

/-! ### Arguments one by one -/

def Arguments.before (first others : Arguments) : Arguments :=
  ⟨first.flags ++ others.flags, first.free ++ others.free⟩

theorem takeApart_cons {argument : String} (unended : argument ≠ "--") (rest : List String) :
    takeApart (argument :: rest) =
      (takeApart [argument]).bind fun first => (takeApart rest).map first.before := by
  have ending : argument.toList ≠ ['-', '-'] := by
    intro dashes
    exact unended (String.toList_inj.mp dashes)
  have alone : ∀ flags : List Flag,
      (Arguments.withFlags flags ⟨[], []⟩).before = Arguments.withFlags flags := by
    intro flags
    funext others
    unfold Arguments.before Arguments.withFlags
    rw [List.append_nil, List.nil_append]
  rw [takeApart, takeApart]
  split
  · contradiction
  · rename_i name _ _
    cases nameToFlag name <;> rfl
  · rename_i letter letters _ _ _
    cases lettersToFlags (letter :: letters) with
    | error failure => rfl
    | ok flags => exact congrArg (fun placed => (takeApart rest).map placed) (alone flags).symm
  · rfl

theorem takeApart_cons_ok {argument : String} {rest : List String} {parts : Arguments}
    (unended : argument ≠ "--") :
    takeApart (argument :: rest) = .ok parts ↔
      ∃ first others, takeApart [argument] = .ok first ∧ takeApart rest = .ok others ∧
        parts = first.before others := by
  rw [takeApart_cons unended]
  cases takeApart [argument] with
  | error failure =>
      constructor
      · intro taken
        cases taken
      · rintro ⟨_, _, taken, _⟩
        cases taken
  | ok first =>
      cases takeApart rest with
      | error failure =>
          constructor
          · intro taken
            cases taken
          · rintro ⟨_, _, _, taken, _⟩
            cases taken
      | ok others =>
          constructor
          · intro taken
            exact ⟨first, others, rfl, rfl, (Except.ok.inj taken).symm⟩
          · rintro ⟨_, _, sameFirst, sameOthers, rfl⟩
            cases sameFirst
            cases sameOthers
            rfl

/-! ### Another order -/

/-- The same flags and the same other arguments, each in any order. -/
structure Arguments.Reordered (parts others : Arguments) : Prop where
  flags : parts.flags.Perm others.flags
  free : parts.free.Perm others.free

theorem Arguments.Reordered.before {parts others : Arguments} (reordered : parts.Reordered others)
    (first : Arguments) : (first.before parts).Reordered (first.before others) :=
  ⟨reordered.flags.append_left _, reordered.free.append_left _⟩

theorem Arguments.reordered_swap (first second others : Arguments) :
    (first.before (second.before others)).Reordered (second.before (first.before others)) :=
  ⟨List.perm_append_comm_assoc _ _ _, List.perm_append_comm_assoc _ _ _⟩

variable {arguments reordered : List String}

/-- Arguments in another order are taken apart into the same flags and files. -/
theorem takeApart_perm (permuted : arguments.Perm reordered) (unended : "--" ∉ arguments)
    {parts : Arguments} (taken : takeApart arguments = .ok parts) :
    ∃ others, takeApart reordered = .ok others ∧ parts.Reordered others := by
  induction permuted generalizing parts with
  | nil => exact ⟨parts, taken, .refl _, .refl _⟩
  | cons argument permuted ih =>
      obtain ⟨firstUnended, restUnended⟩ := List.ne_and_not_mem_of_not_mem_cons unended
      rw [takeApart_cons_ok firstUnended.symm] at taken
      obtain ⟨first, rest, alone, behind, rfl⟩ := taken
      obtain ⟨others, takenOthers, same⟩ := ih restUnended behind
      refine ⟨first.before others, ?_, same.before first⟩
      rw [takeApart_cons_ok firstUnended.symm]
      exact ⟨first, others, alone, takenOthers, rfl⟩
  | swap argument other rest =>
      obtain ⟨otherUnended, bothUnended⟩ := List.ne_and_not_mem_of_not_mem_cons unended
      obtain ⟨firstUnended, _⟩ := List.ne_and_not_mem_of_not_mem_cons bothUnended
      rw [takeApart_cons_ok otherUnended.symm] at taken
      obtain ⟨second, behind, aloneOther, takenBehind, rfl⟩ := taken
      rw [takeApart_cons_ok firstUnended.symm] at takenBehind
      obtain ⟨first, others, alone, takenRest, rfl⟩ := takenBehind
      refine ⟨first.before (second.before others), ?_, Arguments.reordered_swap _ _ _⟩
      rw [takeApart_cons_ok firstUnended.symm]
      refine ⟨first, second.before others, alone, ?_, rfl⟩
      rw [takeApart_cons_ok otherUnended.symm]
      exact ⟨second, others, aloneOther, takenRest, rfl⟩
  | trans firstStep secondStep ihFirst ihSecond =>
      obtain ⟨middle, takenMiddle, toMiddle⟩ := ihFirst unended taken
      have unendedMiddle : "--" ∉ _ := fun member => unended (firstStep.mem_iff.mpr member)
      obtain ⟨others, takenOthers, fromMiddle⟩ := ihSecond unendedMiddle takenMiddle
      exact ⟨others, takenOthers, toMiddle.flags.trans fromMiddle.flags,
        toMiddle.free.trans fromMiddle.free⟩

/-! ### What is made of them -/

section Parts

variable {parts others : Arguments} (same : parts.Reordered others)

include same

theorem Arguments.Reordered.repeatedFlag? :
    repeatedFlag? parts.flags = repeatedFlag? others.flags := by
  unfold CommandLine.repeatedFlag?
  congr 1
  funext flag
  rw [same.flags.count_eq flag]

theorem Arguments.Reordered.contains (flag : Flag) :
    parts.flags.contains flag = others.flags.contains flag := by
  rw [Bool.eq_iff_iff, List.contains_iff_mem, List.contains_iff_mem]
  exact same.flags.mem_iff

theorem Arguments.Reordered.task_ok {task : Task} (asked : parts.task = .ok task) :
    others.task = .ok task := by
  unfold Arguments.task at asked ⊢
  rw [← same.contains, ← same.contains, ← same.contains]
  by_cases help : parts.flags.contains .help = true
  · rw [if_pos help] at asked ⊢
    exact asked
  · rw [if_neg help] at asked ⊢
    obtain ⟨flags, free⟩ := parts
    obtain ⟨otherFlags, otherFree⟩ := others
    have files : free.Perm otherFree := same.free
    match free with
    | [] => cases asked
    | _ :: _ :: _ => cases asked
    | [path] =>
        cases List.perm_singleton.mp files.symm
        exact asked

end Parts

theorem ofArguments_perm (permuted : arguments.Perm reordered) (unended : "--" ∉ arguments)
    {invocation : Invocation} (asked : Invocation.ofArguments arguments = .ok invocation) :
    Invocation.ofArguments reordered = .ok invocation := by
  cases taken : takeApart arguments with
  | error failure =>
      unfold Invocation.ofArguments at asked
      rw [taken] at asked
      cases asked
  | ok parts =>
      obtain ⟨others, takenOthers, same⟩ := takeApart_perm permuted unended taken
      rw [ofArguments_of_parts taken] at asked
      rw [ofArguments_of_parts takenOthers, ← same.repeatedFlag?, ← same.flags.count_eq]
      cases repeated : repeatedFlag? parts.flags with
      | some flag =>
          rw [repeated] at asked
          cases asked
      | none =>
          rw [repeated] at asked
          cases demanded : parts.task with
          | error failure =>
              rw [demanded] at asked
              cases asked
          | ok task =>
              rw [demanded] at asked
              rw [same.task_ok demanded]
              exact asked

/-- Without a double dash, the order of the arguments decides neither how a run ends nor what
it prints. Whatever is asked for in one order is asked for in every other, equally verbosely,
and then the runs are the same; so only the lines that tell of a usage error may differ. -/
theorem order_of_arguments (permuted : arguments.Perm reordered) (unended : "--" ∉ arguments)
    (around : Surroundings) :
    (run arguments around).code = (run reordered around).code ∧
      (run arguments around).stdout = (run reordered around).stdout ∧
      (∀ invocation, Invocation.ofArguments arguments = .ok invocation ↔
        Invocation.ofArguments reordered = .ok invocation) ∧
      ((∃ invocation, Invocation.ofArguments arguments = .ok invocation) →
        run arguments around = run reordered around) := by
  have unendedOther : "--" ∉ reordered := fun member => unended (permuted.mem_iff.mpr member)
  have agree : ∀ invocation, Invocation.ofArguments arguments = .ok invocation ↔
      Invocation.ofArguments reordered = .ok invocation := fun invocation =>
    ⟨ofArguments_perm permuted unended, ofArguments_perm permuted.symm unendedOther⟩
  cases asked : Invocation.ofArguments arguments with
  | ok invocation =>
      have askedOther := (agree invocation).mp asked
      have same : run arguments around = run reordered around := by
        unfold run
        rw [asked, askedOther]
      rw [same, ← asked]
      exact ⟨rfl, rfl, agree, fun _ => rfl⟩
  | error failure =>
      cases askedOther : Invocation.ofArguments reordered with
      | ok invocation =>
          rw [(agree invocation).mpr askedOther] at asked
          cases asked
      | error other =>
          rw [← asked, ← askedOther]
          refine ⟨?_, ?_, agree, ?_⟩
          · unfold run
            rw [asked, askedOther]
          · unfold run
            rw [asked, askedOther]
          · rintro ⟨invocation, found⟩
            rw [asked] at found
            cases found

/-- Two letters together, a word, and a file between them; and two files, of which the second
is told. -/
theorem order_of_arguments_of_cluster :
    (["-vd", "a.vx", "--verbose"].Perm ["a.vx", "--verbose", "-vd"] ∧
      "--" ∉ ["-vd", "a.vx", "--verbose"]) ∧
    Invocation.ofArguments ["-vd", "a.vx", "--verbose"] = .ok ⟨.dump "a.vx", 2⟩ ∧
    run ["-vd", "a.vx", "--verbose"] (.only "") =
      run ["a.vx", "--verbose", "-vd"] (.only "") ∧
    (run ["a.vx", "b.vx", "-t"] (.only "")).code =
      (run ["-t", "b.vx", "a.vx"] (.only "")).code ∧
    (run ["a.vx", "b.vx", "-t"] (.only "")).stderr ≠
      (run ["-t", "b.vx", "a.vx"] (.only "")).stderr := by
  have clustered : ["-vd", "a.vx", "--verbose"].Perm ["a.vx", "--verbose", "-vd"] := by decide
  have unended : "--" ∉ ["-vd", "a.vx", "--verbose"] := by decide
  have asked : Invocation.ofArguments ["-vd", "a.vx", "--verbose"] = .ok ⟨.dump "a.vx", 2⟩ := rfl
  have twoFiles : ["a.vx", "b.vx", "-t"].Perm ["-t", "b.vx", "a.vx"] := by decide
  refine ⟨⟨clustered, unended⟩, asked, ?_, ?_, by decide⟩
  · exact (order_of_arguments clustered unended (.only "")).2.2.2 ⟨_, asked⟩
  · exact (order_of_arguments twoFiles (by decide) (.only "")).1

end Shading.CommandLine
