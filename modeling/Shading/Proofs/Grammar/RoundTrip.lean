import Shading.Proofs.Grammar.OperandRoundTrip

/-!
Ordinary programs survive being written out and parsed.

Semicolons stand between the elements of a sequence, so what follows an element
is a semicolon, a closing brace or nothing, and each of them ends a tree. How many
semicolons there are does not matter, and neither do places.
-/

namespace Shading

namespace Grammar

variable {layout : Layout}

/-! ### Sequences -/

theorem sequence_cons (element : List Token.Kind) (others : List (List Token.Kind)) :
    Spelling.sequence layout (element :: others) =
      element ++ (Spelling.semicolons (if others = [] then layout.last else layout.between) ++
        Spelling.sequence layout others) := by
  cases others with
  | nil => simp [Spelling.sequence, Spelling.joined]
  | cons next others => simp [Spelling.sequence, Spelling.joined]

theorem ReadsExpression.separators {count : Nat} {bound : Precedence} {tree : Expression}
    {input middle rest : List TokenItem}
    (written : Written (Spelling.semicolons count) input middle)
    (derived : ReadsExpression bound middle tree rest) : ReadsExpression bound input tree rest := by
  induction count generalizing input with
  | zero =>
      cases written_nil.mp written
      exact derived
  | succ count ih =>
      obtain ⟨place, later, rfl, following⟩ := written_cons.mp written
      exact .separator (ih following)

theorem ReadsBlock.separators {count : Nat} {body : List Expression}
    {input middle rest : List TokenItem}
    (written : Written (Spelling.semicolons count) input middle)
    (derived : ReadsBlock middle body rest) : ReadsBlock input body rest := by
  cases derived with
  | close following => exact .close (following.separators written)
  | element following solid blocked =>
      exact .element (following.separators written) solid blocked

theorem ReadsProgram.separators {count : Nat} {trees : List Expression}
    {input middle : List TokenItem} (written : Written (Spelling.semicolons count) input middle)
    (derived : ReadsProgram middle trees) : ReadsProgram input trees := by
  cases derived with
  | expression following solid continued =>
      exact .expression (following.separators written) solid continued
  | finish separators =>
      refine .finish ?_
      induction count generalizing input with
      | zero =>
          cases written_nil.mp written
          exact separators
      | succ count ih =>
          obtain ⟨place, later, rfl, following⟩ := written_cons.mp written
          exact List.forall_mem_cons.mpr ⟨⟨place, rfl⟩, ih following⟩

/-- Behind an element that another one follows there is a semicolon, and behind the
last one at most what ends the sequence. -/
theorem ends_behind_element (separated : 0 < layout.between) {isLast : Prop} [Decidable isLast]
    {count : Nat} {input middle : List TokenItem}
    (counted : count = if isLast then layout.last else layout.between)
    (written : Written (Spelling.semicolons count) input middle)
    (ends : isLast → Ahead endsTree middle) : Ahead endsTree input := by
  cases count with
  | zero =>
      cases written_nil.mp written
      by_cases last : isLast
      · exact ends last
      · rw [if_neg last] at counted
        omega
  | succ count =>
      obtain ⟨place, later, rfl, _⟩ := written_cons.mp written
      exact endsTree.mark rfl (by decide)

/-- Written in front of what may end it, a tree is read as a whole expression. -/
def Stands (layout : Layout) (tree : Expression) : Prop :=
  ∀ ⦃input rest : List TokenItem⦄, Written (tree.spelling layout) input rest →
    Ahead endsTree rest →
      ∃ copy, copy.unplaced = tree.unplaced ∧ ReadsExpression .lowest input copy rest

def StandsAsBlock (layout : Layout) (body : List Expression) : Prop :=
  ∀ ⦃input rest : List TokenItem⦄,
    Written (Spelling.blockRest layout (Expression.spellings layout body)) input rest →
      ∃ copies, copies.map Expression.unplaced = body.map Expression.unplaced ∧
        ReadsBlock input copies rest

theorem StandsAsBlock.empty : StandsAsBlock layout [] := by
  intro input rest written
  obtain ⟨place, rfl⟩ := written_singleton.mp written
  exact ⟨[], rfl, .close .brace⟩

/-- A result without a value takes the brace behind it for its value, and leaves it. -/
theorem StandsAsBlock.bare {valuePlace place : Location} :
    StandsAsBlock layout [.result (.void valuePlace) place] := by
  intro input rest written
  rw [Expression.spellings, Expression.spelling, Expression.spelling, Expression.spellings,
    Spelling.blockRest, sequence_cons, List.append_assoc, List.singleton_append,
    written_cons] at written
  obtain ⟨start, later, rfl, written⟩ := written
  rw [List.append_assoc, written_append] at written
  obtain ⟨middle, separators, closing⟩ := written
  obtain ⟨bracePlace, rfl⟩ := written_singleton.mp closing
  have value : ReadsExpression .lowest later (.void bracePlace)
      (.ok ⟨.mark .rightBrace, bracePlace⟩ :: rest) :=
    ReadsExpression.brace.separators separators
  have derived : ReadsExpression .lowest (.ok ⟨.keyword .return, start⟩ :: later)
      (.result (.void bracePlace) start) (.ok ⟨.mark .rightBrace, bracePlace⟩ :: rest) :=
    .statement (.result value) (.stop (endsTree.noAccess (endsTree.mark rfl (by decide))))
  exact ⟨[.result (.void bracePlace) start], rfl, .element derived rfl (.close .brace)⟩

theorem StandsAsBlock.element (separated : 0 < layout.between) {tree : Expression}
    {others : List Expression} (solid : tree.isVoid = false) (stands : Stands layout tree)
    (blocked : StandsAsBlock layout others) : StandsAsBlock layout (tree :: others) := by
  intro input rest written
  rw [Expression.spellings, Spelling.blockRest, sequence_cons, List.append_assoc,
    List.append_assoc, written_append] at written
  obtain ⟨_, treeWritten, written⟩ := written
  obtain ⟨middle, separators, othersWritten⟩ := written_append.mp written
  -- Behind the last element there may be no semicolon, but then the brace follows.
  have ends := ends_behind_element separated rfl separators (by
    intro last
    rw [last] at othersWritten
    obtain ⟨place, _, rfl, _⟩ := written_cons.mp othersWritten
    exact endsTree.mark rfl (by decide))
  obtain ⟨copy, copySame, derived⟩ := stands treeWritten ends
  obtain ⟨copies, same, block⟩ := blocked othersWritten
  refine ⟨copy :: copies, ?_, .element derived
    ((Expression.isVoid_of_unplaced copySame).trans solid) (block.separators separators)⟩
  rw [List.map_cons, List.map_cons, copySame, same]

theorem program_stands (separated : 0 < layout.between) {trees : List Expression}
    (stands : ∀ tree ∈ trees, tree.isVoid = false ∧ Stands layout tree)
    {input : List TokenItem}
    (written : Written (Spelling.sequence layout (Expression.spellings layout trees)) input []) :
    ∃ copies, copies.map Expression.unplaced = trees.map Expression.unplaced ∧
      ReadsProgram input copies := by
  induction trees generalizing input with
  | nil =>
      cases written_nil.mp written
      exact ⟨[], rfl, .finish nofun⟩
  | cons tree others ih =>
      obtain ⟨⟨solid, treeStands⟩, othersStand⟩ := List.forall_mem_cons.mp stands
      rw [Expression.spellings, sequence_cons, written_append] at written
      obtain ⟨_, treeWritten, written⟩ := written
      obtain ⟨middle, separators, othersWritten⟩ := written_append.mp written
      have ends := ends_behind_element separated rfl separators (by
        intro last
        rw [last] at othersWritten
        cases written_nil.mp othersWritten
        trivial)
      obtain ⟨copy, copySame, derived⟩ := treeStands treeWritten ends
      obtain ⟨copies, same, program⟩ := ih othersStand othersWritten
      refine ⟨copy :: copies, ?_, .expression derived
        ((Expression.isVoid_of_unplaced copySame).trans solid) (program.separators separators)⟩
      rw [List.map_cons, List.map_cons, copySame, same]

/-! ### Statements -/

theorem arm_written {condition : Expression} {block : List Expression}
    (ordinary : condition.OperandTree) (blocked : StandsAsBlock layout block)
    {input rest : List TokenItem}
    (written : Written (Spelling.arm (condition.spelling layout)
      (Spelling.blockRest layout (Expression.spellings layout block))) input rest) :
    ∃ copy : Arm, copy.condition.unplaced = condition.unplaced ∧
      copy.block.map Expression.unplaced = block.map Expression.unplaced ∧
        ReadsArm input copy rest := by
  simp only [Spelling.arm, List.cons_append, written_cons, written_append] at written
  obtain ⟨openPlace, _, rfl, _, conditionWritten, closePlace, _, rfl, bracePlace, _, rfl,
    blockWritten⟩ := written
  obtain ⟨test, testSame, derived⟩ :=
    operandTree_whole ordinary conditionWritten (endsTree.mark rfl (by decide))
  obtain ⟨body, bodySame, block⟩ := blocked blockWritten
  exact ⟨⟨test, body⟩, testSame, bodySame, .arm derived block⟩

/-- The further arms of a conditional and its last alternative are read up to what
ends the conditional. -/
theorem furtherArms_written {conditions : List Expression} {blocks : List (List Expression)}
    {otherwise : Option (List Expression)} (paired : blocks.length = conditions.length)
    (ordinary : ∀ condition ∈ conditions, condition.OperandTree)
    (blocked : ∀ block ∈ blocks, StandsAsBlock layout block)
    (otherwiseBlocked : ∀ block, otherwise = some block → StandsAsBlock layout block)
    {input rest : List TokenItem} (ends : Ahead endsTree rest)
    (written : Written (Spelling.arms .elif (Expression.spellings layout conditions)
      (Expression.blockSpellings layout blocks) ++
        Expression.otherwiseSpelling layout otherwise) input rest) :
    ∃ (others : List Arm) (last : Option (List Expression)),
      (others.map Arm.condition).map Expression.unplaced = conditions.map Expression.unplaced ∧
        (others.map Arm.block).map (List.map Expression.unplaced) =
          blocks.map (List.map Expression.unplaced) ∧
        last.map (List.map Expression.unplaced) = otherwise.map (List.map Expression.unplaced) ∧
          ReadsFurtherArms input others last rest := by
  induction conditions generalizing blocks input with
  | nil =>
      cases List.length_eq_zero_iff.mp paired
      cases otherwise with
      | none =>
          cases written_nil.mp written
          exact ⟨[], none, rfl, rfl, rfl, .stop (ends.imp endsTree.noFurtherArm)⟩
      | some block =>
          simp only [Expression.spellings, Expression.blockSpellings, Spelling.arms,
            List.nil_append, Expression.otherwiseSpelling, written_cons] at written
          obtain ⟨place, _, rfl, bracePlace, _, rfl, blockWritten⟩ := written
          obtain ⟨body, same, derived⟩ := otherwiseBlocked block rfl blockWritten
          exact ⟨[], some body, rfl, rfl, congrArg some same, .last derived⟩
  | cons condition conditions ih =>
      cases blocks with
      | nil => cases paired
      | cons block blocks =>
          obtain ⟨conditionOrdinary, conditionsOrdinary⟩ := List.forall_mem_cons.mp ordinary
          obtain ⟨blockStands, blocksStand⟩ := List.forall_mem_cons.mp blocked
          simp only [Expression.spellings, Expression.blockSpellings, Spelling.arms,
            List.cons_append, List.append_assoc, written_cons] at written
          obtain ⟨place, _, rfl, written⟩ := written
          obtain ⟨_, armWritten, othersWritten⟩ := written_append.mp written
          obtain ⟨copy, conditionSame, blockSame, armed⟩ :=
            arm_written conditionOrdinary blockStands armWritten
          obtain ⟨others, last, conditionsSame, blocksSame, lastSame, continued⟩ :=
            ih (Nat.succ.inj paired) conditionsOrdinary blocksStand othersWritten
          refine ⟨copy :: others, last, ?_, ?_, lastSame, .further armed continued⟩
          · rw [List.map_cons, List.map_cons, List.map_cons, conditionSame, conditionsSame]
          · rw [List.map_cons, List.map_cons, List.map_cons, blockSame, blocksSame]

theorem Stands.result {value : Expression} {place : Location} (ordinary : value.OperandTree) :
    Stands layout (.result value place) := by
  intro input rest written ends
  obtain ⟨start, later, rfl, valueWritten⟩ := written_cons.mp written
  obtain ⟨copy, same, derived⟩ := operandTree_whole ordinary valueWritten ends
  refine ⟨.result copy start, ?_,
    .statement (.result derived) (.stop (ends.imp endsTree.noAccess))⟩
  rw [Expression.unplaced_result, Expression.unplaced_result, same]

theorem Stands.loop {condition : Expression} {block : List Expression} {place : Location}
    (ordinary : condition.OperandTree) (blocked : StandsAsBlock layout block) :
    Stands layout (.loop condition block place) := by
  intro input rest written ends
  obtain ⟨start, later, rfl, armWritten⟩ := written_cons.mp written
  obtain ⟨copy, conditionSame, blockSame, armed⟩ := arm_written ordinary blocked armWritten
  refine ⟨.loop copy.condition copy.block start, ?_,
    .statement (.loop armed) (.stop (ends.imp endsTree.noAccess))⟩
  rw [Expression.unplaced_loop, Expression.unplaced_loop, conditionSame, blockSame]

theorem Stands.conditional {conditions : List Expression} {blocks : List (List Expression)}
    {otherwise : Option (List Expression)} {place : Location} (nonempty : conditions ≠ [])
    (paired : blocks.length = conditions.length)
    (ordinary : ∀ condition ∈ conditions, condition.OperandTree)
    (blocked : ∀ block ∈ blocks, StandsAsBlock layout block)
    (otherwiseBlocked : ∀ block, otherwise = some block → StandsAsBlock layout block) :
    Stands layout (.conditional conditions blocks otherwise place) := by
  intro input rest written ends
  cases conditions with
  | nil => exact absurd rfl nonempty
  | cons condition conditions =>
  cases blocks with
  | nil => cases paired
  | cons block blocks =>
      obtain ⟨conditionOrdinary, conditionsOrdinary⟩ := List.forall_mem_cons.mp ordinary
      obtain ⟨blockStands, blocksStand⟩ := List.forall_mem_cons.mp blocked
      simp only [Expression.spelling, Expression.spellings, Expression.blockSpellings,
        Spelling.arms, List.cons_append, List.append_assoc, written_cons] at written
      obtain ⟨start, _, rfl, written⟩ := written
      obtain ⟨_, armWritten, othersWritten⟩ := written_append.mp written
      obtain ⟨first, conditionSame, blockSame, armed⟩ :=
        arm_written conditionOrdinary blockStands armWritten
      obtain ⟨others, last, conditionsSame, blocksSame, lastSame, continued⟩ :=
        furtherArms_written (Nat.succ.inj paired) conditionsOrdinary blocksStand otherwiseBlocked
          ends othersWritten
      refine ⟨_, ?_, .statement (.conditional armed continued)
        (.stop (ends.imp endsTree.noAccess))⟩
      simp only [Expression.unplaced_conditional, List.map_cons, conditionSame, blockSame,
        conditionsSame, blocksSame, lastSame]

/-! ### Programs -/

theorem solid_of_operandTree {tree : Expression} (ordinary : tree.OperandTree) :
    tree.isVoid = false := by
  cases ordinary <;> rfl

theorem solid_of_ordinary {tree : Expression} (ordinary : tree.OrdinaryElement) :
    tree.isVoid = false := by
  cases ordinary with
  | operand ordinary => exact solid_of_operandTree ordinary
  | _ => rfl

mutual

theorem element_stands (separated : 0 < layout.between) {tree : Expression}
    (ordinary : tree.OrdinaryElement) : Stands layout tree := by
  match ordinary with
  | .operand ordinary => exact fun _ _ written ends => operandTree_whole ordinary written ends
  | .result valueOrdinary => exact Stands.result valueOrdinary
  | .conditional nonempty paired conditionsOrdinary blocksOrdinary otherwiseOrdinary =>
      exact Stands.conditional nonempty paired conditionsOrdinary
        (fun block among => block_stands separated (blocksOrdinary block among))
        (fun block last => block_stands separated (otherwiseOrdinary block last))
  | .loop conditionOrdinary blockOrdinary =>
      exact Stands.loop conditionOrdinary (block_stands separated blockOrdinary)

theorem block_stands (separated : 0 < layout.between) {body : List Expression}
    (ordinary : Expression.OrdinaryBlock body) : StandsAsBlock layout body := by
  match ordinary with
  | .empty => exact StandsAsBlock.empty
  | .bare => exact StandsAsBlock.bare
  | .element ordinary othersOrdinary =>
      exact StandsAsBlock.element separated (solid_of_ordinary ordinary)
        (element_stands separated ordinary) (block_stands separated othersOrdinary)

end

end Grammar

/-- An ordinary program, written as tokens at any places with semicolons between the
elements of every sequence, parses to itself up to places. -/
theorem parseTokens_spelling {layout : Layout} {program : Program} {tokens : List Token}
    (separated : 0 < layout.between) (ordinary : program.Ordinary)
    (written : tokens.map Token.kind = program.spelling layout) :
    ∃ parsed, parseTokens tokens = .ok parsed ∧ parsed.unplaced = program.unplaced := by
  have stands : ∀ tree ∈ program.expressions, tree.isVoid = false ∧ Grammar.Stands layout tree :=
    fun tree among => ⟨Grammar.solid_of_ordinary (ordinary tree among),
      Grammar.element_stands separated (ordinary tree among)⟩
  obtain ⟨copies, same, derived⟩ :=
    Grammar.program_stands separated stands ⟨tokens, written, (List.append_nil _).symm⟩
  exact ⟨⟨copies⟩, parseTokens_iff.mpr derived, congrArg Program.mk same⟩

def comparisonLoop : Program :=
  ⟨[.loop
    (.binary (.boolean .less) (.call "f" [] .origin)
      (.binary .member (.call "g" [.truth true .origin] .origin) (.memberName "x" .origin) .origin)
      .origin)
    [.unary (.boolean .not) (.truth false .origin) .origin, .result (.void .origin) .origin]
    .origin]⟩

theorem comparisonLoop_ordinary : comparisonLoop.Ordinary := by
  refine List.forall_mem_singleton.mpr (.loop ?_ ?_)
  · refine .infixed rfl rfl ?_ ?_ (.call (List.forall_mem_nil _)) (.member rfl (.call ?_))
    · rintro inner ⟨⟩
    · rintro inner ⟨⟩
    · exact List.forall_mem_singleton.mpr .truth
  · exact .element (.operand (.prefixed rfl rfl .truth)) .bare

/-- The tokens of `while (f() < g(true).x) { !false; ret; };`, each on a line of its own. -/
def comparisonLoopTokens : List Token :=
  [⟨.keyword .while, ⟨0, 0⟩⟩, ⟨.mark .leftParenthesis, ⟨1, 0⟩⟩, ⟨.name "f", ⟨2, 0⟩⟩,
    ⟨.mark .leftParenthesis, ⟨3, 0⟩⟩, ⟨.mark .rightParenthesis, ⟨4, 0⟩⟩,
    ⟨.boolean .less, ⟨5, 0⟩⟩, ⟨.name "g", ⟨6, 0⟩⟩, ⟨.mark .leftParenthesis, ⟨7, 0⟩⟩,
    ⟨.keyword .true, ⟨8, 0⟩⟩, ⟨.mark .rightParenthesis, ⟨9, 0⟩⟩, ⟨.mark .dot, ⟨10, 0⟩⟩,
    ⟨.name "x", ⟨11, 0⟩⟩, ⟨.mark .rightParenthesis, ⟨12, 0⟩⟩, ⟨.mark .leftBrace, ⟨13, 0⟩⟩,
    ⟨.boolean .not, ⟨14, 0⟩⟩, ⟨.keyword .false, ⟨15, 0⟩⟩, ⟨.mark .semicolon, ⟨16, 0⟩⟩,
    ⟨.keyword .return, ⟨17, 0⟩⟩, ⟨.mark .semicolon, ⟨18, 0⟩⟩, ⟨.mark .rightBrace, ⟨19, 0⟩⟩,
    ⟨.mark .semicolon, ⟨20, 0⟩⟩]

theorem parseTokens_spelling_of_loop :
    comparisonLoopTokens.map Token.kind = comparisonLoop.spelling .closed ∧
      ∃ parsed, parseTokens comparisonLoopTokens = .ok parsed ∧
        parsed.unplaced = comparisonLoop.unplaced :=
  ⟨rfl, parseTokens_spelling (by decide : 0 < Layout.closed.between) comparisonLoop_ordinary rfl⟩

end Shading
