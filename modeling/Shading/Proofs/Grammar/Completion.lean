import Shading.Proofs.Grammar.Extension
import Shading.Proofs.Grammar.Program
import Shading.Proofs.Shortage

/-!
What ends too early can be completed.

Wherever a form runs out of tokens, some tokens can be added that finish it, in
front of whatever may follow a whole tree. If the form fails in an inner reading,
this reading is finished first, and a closing mark or a further part of the form is
put behind it. If an inner reading has answered, its derivation is kept.
-/

namespace Shading.Grammar

open Reading

/-! ### Completions -/

def RolesFollow (input : List TokenItem) : Prop :=
  ∀ ⦃before : List TokenItem⦄ ⦃place : Location⦄ ⦃found : Token⦄ ⦃after : List TokenItem⦄,
    input = before ++ .ok ⟨.mark .at, place⟩ :: .ok found :: after →
      ∃ role, pipelineRole? found.kind = some role

theorem RolesFollow.of_suffix {input rest : List TokenItem} (roles : RolesFollow input)
    (suffix : rest <:+ input) : RolesFollow rest := by
  rintro before place found after rfl
  obtain ⟨front, same⟩ := suffix
  apply @roles (front ++ before) place found after
  rw [← same, List.append_assoc]

theorem RolesFollow.behind {item : TokenItem} {rest : List TokenItem}
    (roles : RolesFollow (item :: rest)) : RolesFollow rest :=
  roles.of_suffix (List.suffix_cons _ _)

/-- Tokens can be added behind the input so that it is read up to whatever stands
behind them, if that may follow a whole tree. -/
def Completable (reads : List TokenItem → List TokenItem → Prop) (input : List TokenItem) : Prop :=
  ∃ completion : List Token, ∀ rest, Ahead endsTree rest →
    reads (input ++ (completion.map .ok ++ rest)) rest

def added (kind : Token.Kind) : Token := ⟨kind, .origin⟩

section Composition

variable {reads other : List TokenItem → List TokenItem → Prop} {input whole : List TokenItem}

theorem Completable.close (completable : Completable reads input) (closing : List Token)
    (ends : ∀ {rest}, Ahead endsTree rest → Ahead endsTree (closing.map .ok ++ rest))
    (behind : ∀ {more rest}, Ahead endsTree rest →
      reads (input ++ more) (closing.map .ok ++ rest) → other (whole ++ more) rest) :
    Completable other whole := by
  obtain ⟨completion, complete⟩ := completable
  refine ⟨completion ++ closing, fun rest following => ?_⟩
  rw [List.map_append, List.append_assoc]
  exact behind following (complete _ (ends following))

theorem Completable.map (completable : Completable reads input)
    (behind : ∀ {more rest}, Ahead endsTree rest → reads (input ++ more) rest →
      other (whole ++ more) rest) : Completable other whole :=
  completable.close [] id behind

end Composition

theorem readsAccesses_stop {start : Location} {left : Expression} {rest : List TokenItem}
    (ends : Ahead endsTree rest) : ReadsAccesses start left rest left rest :=
  .stop (ends.imp endsTree.noAccess)

theorem readsChain_stop {bound : Precedence} {start : Location} {left : Expression}
    {rest : List TokenItem} (ends : Ahead endsTree rest) :
    ReadsChain bound start left rest left rest :=
  .stop (ends.imp fun ends => .inl ends.1)

theorem OnlySeparators.before {bound : Precedence} {input more rest : List TokenItem}
    {tree : Expression} (separators : OnlySeparators input)
    (following : ReadsExpression bound more tree rest) :
    ReadsExpression bound (input ++ more) tree rest := by
  induction input with
  | nil => exact following
  | cons item others ih =>
      obtain ⟨⟨place, rfl⟩, separatorsBehind⟩ := List.forall_mem_cons.mp separators
      exact .separator (ih separatorsBehind)

/-! ### Inner expressions -/

def SomeExpression (bound : Precedence) (input rest : List TokenItem) : Prop :=
  ∃ tree, ReadsExpression bound input tree rest

def SomeOperand (token : Token) (input rest : List TokenItem) : Prop :=
  ∃ tree, ReadsOperand token input tree rest

/-- Inner expressions are faithful on lists that are shorter than a size, and those
that run out of tokens can be completed. -/
structure Finishing (size : Nat) (inner : Inner) : Prop where
  faithful : Faithful inner size
  nothing : ∀ {bound : Precedence} {input rest : List TokenItem}, input.length < size →
    (inner bound).Accepts input none rest → OnlySeparators input
  finish : ∀ {bound : Precedence} {input : List TokenItem}, input.length < size →
    RolesFollow input → (inner bound).Lacks input → Completable (SomeExpression bound) input

variable {inner : Inner} {size limit : Nat} {input : List TokenItem} {bound : Precedence}
  {token : Token} {start : Location}

theorem readsExpression_added {rest : List TokenItem} (ends : Ahead endsTree rest) :
    ReadsExpression bound (.ok (added (.keyword .true)) :: rest) (.truth true .origin) rest :=
  .operand .truth (readsAccesses_stop ends) (readsChain_stop ends)

theorem Finishing.required (finishing : Finishing size inner) (shorter : input.length < size)
    (roles : RolesFollow input) (lacks : (required inner bound).Lacks input) :
    Completable (SomeExpression bound) input := by
  rcases lacks_bind.mp lacks with unread | ⟨answer, middle, found, failed⟩
  · exact finishing.finish shorter roles unread
  · cases answer with
    | some tree => cases failed
    | none =>
        have separators := finishing.nothing shorter found
        exact ⟨[added (.keyword .true)], fun rest ends =>
          ⟨_, separators.before (readsExpression_added ends)⟩⟩

/-! ### Operands -/

theorem endsTree_rightParenthesis : endsTree (.mark .rightParenthesis) := .mark rfl nofun

def SomeArguments (standing : ArgumentPlace) (input rest : List TokenItem) : Prop :=
  ∃ values, ReadsArguments standing input values rest

theorem completable_arguments_nil {standing : ArgumentPlace} :
    Completable (SomeArguments standing) [] := by
  cases standing with
  | afterComma =>
      refine ⟨[added (.keyword .true), added (.mark .rightParenthesis)], fun rest _ =>
        ⟨[.truth true .origin], ?_⟩⟩
      exact .argument nofun ⟨nofun, nofun⟩ (readsExpression_added endsTree_rightParenthesis)
        (.close nofun)
  | _ => exact ⟨[added (.mark .rightParenthesis)], fun rest _ => ⟨[], .close nofun⟩⟩

theorem not_lacks_arguments_brace {value : Expression} {rest : List TokenItem}
    (derived : ReadsExpression bound input value rest)
    (lacks : (arguments inner limit .afterArgument).Lacks rest) : value.isVoid = false := by
  cases empty : value.isVoid with
  | false => rfl
  | true =>
      obtain ⟨place, later, _, rfl⟩ := derived.brace_ahead empty
      cases limit with
      | zero => exact lacks.elim
      | succ limit =>
          rw [arguments_succ] at lacks
          cases lacks

theorem Finishing.arguments (finishing : Finishing size inner) {standing : ArgumentPlace}
    (within : input.length < limit) (shorter : input.length < size) (roles : RolesFollow input)
    (lacks : (arguments inner limit standing).Lacks input) :
    Completable (SomeArguments standing) input := by
  induction limit generalizing input standing with
  | zero => omega
  | succ limit ih =>
  rcases input with _ | ⟨failure | token, later⟩
  · exact completable_arguments_nil
  · rw [arguments_succ] at lacks
    exact lacks.elim
  rw [arguments_succ, lacks_peek_token] at lacks
  simp only [List.length_cons] at within
  cases turn : argumentTurn standing (some token) with
  | ended => cases argumentTurn_ended turn
  | close =>
      rw [turn] at lacks
      exact lacks.elim
  | refuse failure =>
      obtain ⟨_, _, rfl⟩ := argumentTurn_refuse turn
      rw [turn] at lacks
      cases lacks
  | comma =>
      rw [turn] at lacks
      obtain ⟨rfl, comma⟩ := argumentTurn_comma turn
      obtain ⟨kind, place⟩ := token
      cases comma
      have shorterLater : later.length < size := Nat.lt_of_succ_lt shorter
      apply (ih (by omega) shorterLater roles.behind lacks).map
      intro more rest _ completed
      obtain ⟨values, derived⟩ := completed
      exact ⟨values, .comma derived⟩
  | argument =>
      rw [turn] at lacks
      obtain ⟨expected, begins⟩ := argumentTurn_argument turn
      rcases lacks_bind.mp lacks with unread | ⟨value, middle, found, failed⟩
      · apply (finishing.required shorter roles unread).close [added (.mark .rightParenthesis)]
          fun _ => endsTree_rightParenthesis
        intro more rest _ completed
        obtain ⟨value, derived⟩ := completed
        exact ⟨[value], .argument expected begins derived (.close nofun)⟩
      · have derived := (Faithful.required finishing.faithful shorter).mp found
        have unread := lacks_bind_pure.mp failed
        have unclosed := not_lacks_arguments_brace derived unread
        have progress := derived.shorter unclosed
        have rolesBehind := roles.of_suffix found.suffix
        simp only [List.length_cons] at progress shorter
        cases middle with
        | nil =>
            refine ⟨[added (.mark .rightParenthesis)], fun rest _ => ⟨[value], ?_⟩⟩
            exact .argument expected begins
              (derived.append fun _ => endsTree_rightParenthesis) (.close nofun)
        | cons item others =>
            apply (ih (by omega) (by omega) rolesBehind unread).map
            intro more rest _ completed
            obtain ⟨values, continued⟩ := completed
            exact ⟨value :: values, .argument expected begins
              (derived.append (absurd · (List.cons_ne_nil _ _))) continued⟩

theorem Finishing.callForm (finishing : Finishing size inner) {name : String}
    (within : input.length < limit) (shorter : input.length < size) (roles : RolesFollow input)
    (lacks : (callForm inner limit name start).Lacks (.ok token :: input)) :
    Completable (SomeOperand ⟨.name name, start⟩) input := by
  unfold Grammar.callForm at lacks
  rw [lacks_skip_token] at lacks
  rcases input with _ | ⟨failure | opening, later⟩
  · refine ⟨[added (.mark .leftParenthesis), added (.mark .rightParenthesis)], fun rest _ => ?_⟩
    exact ⟨.call name [] start, .call (.close nofun)⟩
  · exact lacks.elim
  rw [lacks_peek_token] at lacks
  rcases lacks_bind.mp lacks with ended | ⟨_, middle, found, failed⟩
  · cases lacks_expect.mp ended
  · obtain ⟨place, rfl, split⟩ := expected_token found
    cases split
    simp only [List.length_cons] at within shorter
    have unread := lacks_bind_pure.mp failed
    apply (finishing.arguments (by omega) (by omega) roles.behind unread).map
    intro more rest _ completed
    obtain ⟨values, derived⟩ := completed
    exact ⟨.call name values start, .call derived⟩

theorem Finishing.unaryForm (finishing : Finishing size inner) {operator : Operator}
    (stands : token.kind.operator? = some operator) (shorter : input.length < size)
    (roles : RolesFollow input)
    (lacks : (unaryForm inner operator start).Lacks (.ok token :: input)) :
    Completable (SomeOperand token) input := by
  unfold Grammar.unaryForm at lacks
  rw [lacks_skip_token] at lacks
  by_cases before : operator.standsBefore = true
  · rw [if_pos before] at lacks
    have unread := lacks_bind_pure.mp lacks
    apply (finishing.required shorter roles unread).map
    intro more rest _ completed
    obtain ⟨value, derived⟩ := completed
    exact ⟨.unary operator value token.location, .unary stands before derived⟩
  · rw [if_neg before] at lacks
    cases lacks

theorem Finishing.parenthesizedForm (finishing : Finishing size inner)
    (shorter : input.length < size) (roles : RolesFollow input)
    (lacks : (parenthesizedForm inner start).Lacks (.ok token :: input)) :
    Completable (SomeOperand ⟨.mark .leftParenthesis, start⟩) input := by
  unfold Grammar.parenthesizedForm at lacks
  rw [lacks_skip_token] at lacks
  rcases lacks_bind.mp lacks with unread | ⟨value, middle, found, failed⟩
  · apply (finishing.required shorter roles unread).close [added (.mark .rightParenthesis)]
      fun _ => endsTree_rightParenthesis
    intro more rest _ completed
    obtain ⟨value, derived⟩ := completed
    exact ⟨.parenthesized value start, .parenthesized derived⟩
  · have derived := (Faithful.required finishing.faithful shorter).mp found
    have ended := lacks_bind_pure.mp failed
    cases lacks_expect.mp ended
    refine ⟨[added (.mark .rightParenthesis)], fun rest _ => ?_⟩
    exact ⟨.parenthesized value start,
      .parenthesized (derived.append fun _ => endsTree_rightParenthesis)⟩

theorem completable_variableForm
    (lacks : (variableForm start).Lacks (.ok token :: input)) :
    Completable (SomeOperand ⟨.keyword .var, start⟩) input := by
  unfold variableForm at lacks
  rw [lacks_skip_token] at lacks
  rcases lacks_bind.mp lacks with ended | ⟨⟨kind, place⟩, middle, found, failed⟩
  · cases lacks_next.mp ended
    refine ⟨[added (.typeName (.value .float)), added (.name "name")], fun rest _ => ?_⟩
    exact ⟨.declaration .float "name" start, .declaration⟩
  · cases accepts_next.mp found
    cases named : variableType? kind with
    | none =>
        rw [named] at failed
        cases failed
    | some type =>
        rw [named] at failed
        have ended := lacks_bind_pure.mp failed
        cases lacks_expectName.mp ended
        cases variableType?_some named
        refine ⟨[added (.name "name")], fun rest _ => ?_⟩
        exact ⟨.declaration type "name" start, .declaration⟩

theorem completable_pipelineForm {place : Location}
    (roles : RolesFollow (.ok ⟨.mark .at, place⟩ :: input))
    (lacks : (pipelineForm start).Lacks (.ok token :: input)) :
    Completable (SomeOperand ⟨.mark .at, start⟩) input := by
  unfold pipelineForm at lacks
  rw [lacks_skip_token] at lacks
  rcases lacks_bind.mp lacks with ended | ⟨⟨kind, rolePlace⟩, middle, found, failed⟩
  · cases lacks_next.mp ended
    refine ⟨[added (.keyword .uniform), added (.name "name")], fun rest _ => ?_⟩
    exact ⟨.pipeline .uniform "name" start, .pipeline rfl⟩
  · cases accepts_next.mp found
    obtain ⟨role, named⟩ := @roles [] place ⟨kind, rolePlace⟩ middle rfl
    rcases lacks_bind.mp failed with ended | ⟨_, _, _, judged⟩
    · cases lacks_expectName.mp ended
      refine ⟨[added (.name "name")], fun rest _ => ?_⟩
      exact ⟨.pipeline role "name" start, .pipeline named⟩
    · dsimp only at judged
      rw [named] at judged
      exact judged.elim

theorem Finishing.operand (finishing : Finishing size inner)
    (within : input.length < limit) (shorter : input.length < size)
    (roles : RolesFollow (.ok token :: input))
    (lacks : (operand inner limit token).Lacks (.ok token :: input)) :
    Completable (SomeOperand token) input := by
  have rolesBehind := roles.behind
  rw [operand_eq] at lacks
  obtain ⟨kind, place⟩ := token
  cases turn : operandTurn kind with
  | call name =>
      cases operandTurn_kind? (congrArg OperandTurn.kind? turn)
      exact finishing.callForm within shorter rolesBehind lacks
  | declaration =>
      cases operandTurn_kind? (congrArg OperandTurn.kind? turn)
      exact completable_variableForm lacks
  | pipeline =>
      cases operandTurn_kind? (congrArg OperandTurn.kind? turn)
      exact completable_pipelineForm roles lacks
  | parenthesized =>
      cases operandTurn_kind? (congrArg OperandTurn.kind? turn)
      exact finishing.parenthesizedForm shorter rolesBehind lacks
  | unary operator =>
      rw [turn] at lacks
      exact finishing.unaryForm (operandTurn_unary turn) shorter rolesBehind lacks
  | number value =>
      rw [turn] at lacks
      exact lacks.elim
  | truth value =>
      rw [turn] at lacks
      exact lacks.elim
  | refuse =>
      rw [turn] at lacks
      cases lacks

/-! ### Statements -/

theorem endsTree_rightBrace : endsTree (.mark .rightBrace) := .mark rfl nofun

def SomeBlock (input rest : List TokenItem) : Prop := ∃ body, ReadsBlock input body rest

theorem someBlock_of_brace {place : Location} {rest : List TokenItem}
    (completed : SomeExpression .lowest input (.ok ⟨.mark .rightBrace, place⟩ :: rest)) :
    SomeBlock input rest := by
  obtain ⟨tree, derived⟩ := completed
  cases empty : tree.isVoid with
  | false => exact ⟨[tree], .element derived empty (.close .brace)⟩
  | true =>
      obtain ⟨_, _, rfl, _⟩ := derived.brace_ahead empty
      exact ⟨[], .close derived⟩

theorem Finishing.blockRest (finishing : Finishing size inner)
    (within : input.length < limit) (shorter : input.length < size) (roles : RolesFollow input)
    (lacks : (blockRest inner limit).Lacks input) : Completable SomeBlock input := by
  induction limit generalizing input with
  | zero => omega
  | succ limit ih =>
  rcases input with _ | ⟨failure | token, later⟩
  · exact ⟨[added (.mark .rightBrace)], fun rest _ => ⟨[], .close .brace⟩⟩
  · exact lacks.elim
  rw [Grammar.blockRest, lacks_peek_token] at lacks
  rcases lacks_bind.mp lacks with unread | ⟨value, middle, found, failed⟩
  · apply (finishing.required shorter roles unread).close [added (.mark .rightBrace)]
      fun _ => endsTree_rightBrace
    intro more rest _ completed
    exact someBlock_of_brace completed
  · have derived := (Faithful.required finishing.faithful shorter).mp found
    cases empty : value.isVoid with
    | true =>
        rw [if_pos empty] at failed
        obtain ⟨_, _, _, rfl⟩ := derived.brace_ahead empty
        exact failed.elim
    | false =>
        rw [if_neg (Bool.eq_false_iff.mp empty)] at failed
        have unread := lacks_bind_pure.mp failed
        have progress := derived.shorter empty
        have rolesBehind := roles.of_suffix found.suffix
        cases middle with
        | nil =>
            refine ⟨[added (.mark .rightBrace)], fun rest _ => ⟨[value], ?_⟩⟩
            exact .element (derived.append fun _ => endsTree_rightBrace) empty (.close .brace)
        | cons item others =>
            apply (ih (by omega) (by omega) rolesBehind unread).map
            intro more rest _ completed
            obtain ⟨body, continued⟩ := completed
            exact ⟨value :: body,
              .element (derived.append (absurd · (List.cons_ne_nil _ _))) empty continued⟩

def SomeBraces (input rest : List TokenItem) : Prop :=
  ∃ place later body, input = .ok ⟨.mark .leftBrace, place⟩ :: later ∧ ReadsBlock later body rest

theorem Finishing.block (finishing : Finishing size inner)
    (within : input.length ≤ limit) (shorter : input.length ≤ size) (roles : RolesFollow input)
    (lacks : (block inner limit).Lacks input) : Completable SomeBraces input := by
  rcases lacks_bind.mp lacks with ended | ⟨opening, later, found, failed⟩
  · cases lacks_expect.mp ended
    exact ⟨[added (.mark .leftBrace), added (.mark .rightBrace)], fun rest _ =>
      ⟨_, _, [], rfl, .close .brace⟩⟩
  · obtain ⟨place, rfl, rfl⟩ := expected_token found
    simp only [List.length_cons] at within shorter
    apply (finishing.blockRest (by omega) (by omega) roles.behind failed).map
    intro more rest _ completed
    obtain ⟨body, derived⟩ := completed
    exact ⟨place, _, body, rfl, derived⟩

def SomeArm (input rest : List TokenItem) : Prop := ∃ armed, ReadsArm input armed rest

theorem Finishing.arm (finishing : Finishing size inner)
    (within : input.length ≤ limit) (shorter : input.length ≤ size) (roles : RolesFollow input)
    (lacks : (arm inner limit).Lacks input) : Completable SomeArm input := by
  rcases lacks_bind.mp lacks with untested | ⟨test, middle, tested, failed⟩
  · -- The condition is not complete, so an empty block is added behind it.
    rcases lacks_bind.mp untested with ended | ⟨opening, later, found, failed⟩
    · cases lacks_expect.mp ended
      refine ⟨[added (.mark .leftParenthesis), added (.keyword .true),
        added (.mark .rightParenthesis), added (.mark .leftBrace), added (.mark .rightBrace)],
        fun rest _ => ⟨⟨.truth true .origin, []⟩, ?_⟩⟩
      exact .arm (readsExpression_added endsTree_rightParenthesis) (.close .brace)
    · obtain ⟨place, rfl, rfl⟩ := expected_token found
      simp only [List.length_cons] at shorter
      rcases lacks_bind.mp failed with unread | ⟨test, behind, found, failed⟩
      · apply (finishing.required (by omega) roles.behind unread).close
          [added (.mark .rightParenthesis), added (.mark .leftBrace), added (.mark .rightBrace)]
          fun _ => endsTree_rightParenthesis
        intro more rest _ completed
        obtain ⟨test, derived⟩ := completed
        exact ⟨⟨test, []⟩, .arm derived (.close .brace)⟩
      · have derived := (Faithful.required finishing.faithful (by omega)).mp found
        have ended := lacks_bind_pure.mp failed
        cases lacks_expect.mp ended
        refine ⟨[added (.mark .rightParenthesis), added (.mark .leftBrace),
          added (.mark .rightBrace)], fun rest _ => ⟨⟨test, []⟩, ?_⟩⟩
        exact .arm (derived.append fun _ => endsTree_rightParenthesis) (.close .brace)
  · obtain ⟨openPlace, later, closePlace, rfl, derived⟩ :=
      (Faithful.condition finishing.faithful shorter).mp tested
    have left := derived.takes.length_le
    simp only [List.length_cons] at within shorter left
    have rolesBehind := roles.of_suffix tested.suffix
    have unread := lacks_bind_pure.mp failed
    apply (finishing.block (by omega) (by omega) rolesBehind unread).map
    intro more rest _ completed
    obtain ⟨bracePlace, inside, body, opened, blocked⟩ := completed
    have whole : ReadsExpression .lowest (later ++ more) test
        (.ok ⟨.mark .rightParenthesis, closePlace⟩ :: (middle ++ more)) :=
      derived.append (absurd · (List.cons_ne_nil _ _))
    rw [opened] at whole
    exact ⟨⟨test, body⟩, .arm whole blocked⟩

def SomeFurtherArms (input rest : List TokenItem) : Prop :=
  ∃ others otherwise, ReadsFurtherArms input others otherwise rest

theorem Finishing.furtherArms (finishing : Finishing size inner) {blockLimit : Nat}
    (within : input.length < limit) (blockWithin : input.length ≤ blockLimit)
    (shorter : input.length ≤ size) (roles : RolesFollow input)
    (lacks : (furtherArms inner blockLimit limit).Lacks input) :
    Completable SomeFurtherArms input := by
  induction limit generalizing input with
  | zero => omega
  | succ limit ih =>
  rw [furtherArms_succ] at lacks
  rcases input with _ | ⟨failure | token, later⟩
  · exact lacks.elim
  · exact lacks.elim
  rw [lacks_peek_token] at lacks
  simp only [List.length_cons] at within blockWithin shorter
  have rolesBehind := roles.behind
  obtain ⟨kind, place⟩ := token
  cases turn : armTurn (some ⟨kind, place⟩) with
  | stop =>
      rw [turn] at lacks
      exact lacks.elim
  | last =>
      cases armTurn_kind? (congrArg ArmTurn.kind? turn)
      have unread := lacks_bind_pure.mp (lacks_skip_token.mp lacks)
      apply (finishing.block (by omega) (by omega) rolesBehind unread).map
      intro more rest _ completed
      obtain ⟨bracePlace, inside, body, opened, blocked⟩ := completed
      refine ⟨[], some body, ?_⟩
      rw [List.cons_append, opened]
      exact .last blocked
  | further =>
      cases armTurn_kind? (congrArg ArmTurn.kind? turn)
      rw [turn] at lacks
      rcases lacks_bind.mp (lacks_skip_token.mp lacks) with unread | ⟨next, middle, found, failed⟩
      · apply (finishing.arm (by omega) (by omega) rolesBehind unread).map
        intro more rest ends completed
        obtain ⟨next, derived⟩ := completed
        exact ⟨[next], none, .further derived (.stop (ends.imp endsTree.noFurtherArm))⟩
      · have derived := (Faithful.arm finishing.faithful (by omega) (by omega)).mp found
        have left := derived.takes.length_le
        have unread := lacks_bind_pure.mp failed
        apply (ih (by omega) (by omega) (by omega) (rolesBehind.of_suffix found.suffix)
          unread).map
        intro more rest _ completed
        obtain ⟨others, otherwise, continued⟩ := completed
        exact ⟨next :: others, otherwise, .further derived.append continued⟩

def SomeStatement (token : Token) (input rest : List TokenItem) : Prop :=
  ∃ tree, ReadsStatement token input tree rest

theorem Finishing.resultForm (finishing : Finishing size inner) (shorter : input.length < size)
    (roles : RolesFollow input) (lacks : (resultForm inner start).Lacks (.ok token :: input)) :
    Completable (SomeStatement ⟨.keyword .return, start⟩) input := by
  unfold Grammar.resultForm at lacks
  rw [lacks_skip_token] at lacks
  have unread := lacks_bind_pure.mp lacks
  apply (finishing.required shorter roles unread).map
  intro more rest _ completed
  obtain ⟨value, derived⟩ := completed
  exact ⟨.result value start, .result derived⟩

theorem Finishing.conditionalForm (finishing : Finishing size inner)
    (within : input.length < limit) (shorter : input.length < size) (roles : RolesFollow input)
    (lacks : (conditionalForm inner limit start).Lacks (.ok token :: input)) :
    Completable (SomeStatement ⟨.keyword .if, start⟩) input := by
  unfold Grammar.conditionalForm at lacks
  rw [lacks_skip_token] at lacks
  rcases lacks_bind.mp lacks with unread | ⟨first, middle, found, failed⟩
  · apply (finishing.arm (by omega) (by omega) roles unread).map
    intro more rest ends completed
    obtain ⟨first, derived⟩ := completed
    exact ⟨_, .conditional derived (.stop (ends.imp endsTree.noFurtherArm))⟩
  · have derived := (Faithful.arm finishing.faithful (by omega) (by omega)).mp found
    have left := derived.takes.length_le
    have unread := lacks_bind_pure.mp failed
    apply (finishing.furtherArms (by omega) (by omega) (by omega)
      (roles.of_suffix found.suffix) unread).map
    intro more rest _ completed
    obtain ⟨others, otherwise, continued⟩ := completed
    exact ⟨_, .conditional derived.append continued⟩

theorem Finishing.loopForm (finishing : Finishing size inner)
    (within : input.length < limit) (shorter : input.length < size) (roles : RolesFollow input)
    (lacks : (loopForm inner limit start).Lacks (.ok token :: input)) :
    Completable (SomeStatement ⟨.keyword .while, start⟩) input := by
  unfold Grammar.loopForm at lacks
  rw [lacks_skip_token] at lacks
  have unread := lacks_bind_pure.mp lacks
  apply (finishing.arm (by omega) (by omega) roles unread).map
  intro more rest _ completed
  obtain ⟨repeated, derived⟩ := completed
  exact ⟨_, .loop derived⟩

/-! ### Behind an operand -/

theorem endsTree_rightBracket : endsTree (.mark .rightBracket) := .mark rfl nofun

theorem accesses_ne_nil {left : Expression}
    (lacks : (accesses inner start limit left).Lacks input) : input ≠ [] := by
  rintro rfl
  cases limit <;> exact lacks.elim

theorem chain_ne_nil {left : Expression}
    (lacks : (chain inner bound start limit left).Lacks input) : input ≠ [] := by
  rintro rfl
  cases limit <;> exact lacks.elim

def SomeAccesses (start : Location) (left : Expression) (input rest : List TokenItem) : Prop :=
  ∃ tree, ReadsAccesses start left input tree rest

theorem Finishing.accesses (finishing : Finishing size inner) {left : Expression}
    (within : input.length < limit) (shorter : input.length ≤ size) (roles : RolesFollow input)
    (lacks : (accesses inner start limit left).Lacks input) :
    Completable (SomeAccesses start left) input := by
  induction limit generalizing input left with
  | zero => omega
  | succ limit ih =>
  rw [accesses_succ] at lacks
  rcases input with _ | ⟨failure | token, later⟩
  · exact lacks.elim
  · exact lacks.elim
  rw [lacks_peek_token] at lacks
  simp only [List.length_cons] at within shorter
  have rolesBehind := roles.behind
  obtain ⟨kind, place⟩ := token
  cases turn : accessTurn (some ⟨kind, place⟩) with
  | stop =>
      rw [turn] at lacks
      exact lacks.elim
  | member =>
      cases accessTurn_kind? (congrArg AccessTurn.kind? turn)
      rw [turn] at lacks
      rcases lacks_bind.mp (lacks_skip_token.mp lacks) with
        ended | ⟨⟨name, namePlace⟩, middle, found, failed⟩
      · cases lacks_expectName.mp ended
        exact ⟨[added (.name "name")], fun rest ends =>
          ⟨_, .member (readsAccesses_stop ends)⟩⟩
      · have suffix := found.suffix
        cases accepts_expectName.mp found
        simp only [List.length_cons] at within shorter
        apply (ih (by omega) (by omega) (rolesBehind.of_suffix suffix) failed).map
        intro more rest _ completed
        obtain ⟨tree, others⟩ := completed
        exact ⟨tree, .member others⟩
  | index =>
      cases accessTurn_kind? (congrArg AccessTurn.kind? turn)
      rw [turn] at lacks
      rcases lacks_bind.mp (lacks_skip_token.mp lacks) with
        unread | ⟨position, middle, found, failed⟩
      · apply (finishing.required (by omega) rolesBehind unread).close
          [added (.mark .rightBracket)] fun _ => endsTree_rightBracket
        intro more rest ends completed
        obtain ⟨position, derived⟩ := completed
        exact ⟨_, .index derived (readsAccesses_stop ends)⟩
      · have derived := (Faithful.required finishing.faithful (by omega)).mp found
        have left := derived.takes.length_le
        have rolesFound := rolesBehind.of_suffix found.suffix
        rcases lacks_bind.mp failed with ended | ⟨closing, behind, closed, failed⟩
        · cases lacks_expect.mp ended
          exact ⟨[added (.mark .rightBracket)], fun rest ends =>
            ⟨_, .index (derived.append fun _ => endsTree_rightBracket) (readsAccesses_stop ends)⟩⟩
        · have suffix := closed.suffix
          obtain ⟨closePlace, rfl, rfl⟩ := expected_token closed
          simp only [List.length_cons] at left
          apply (ih (by omega) (by omega) (rolesFound.of_suffix suffix) failed).map
          intro more rest _ completed
          obtain ⟨tree, others⟩ := completed
          exact ⟨tree, .index (derived.append (absurd · (List.cons_ne_nil _ _))) others⟩

def SomeChain (bound : Precedence) (start : Location) (left : Expression)
    (input rest : List TokenItem) : Prop :=
  ∃ tree, ReadsChain bound start left input tree rest

theorem Finishing.chain (finishing : Finishing size inner) {left : Expression}
    (within : input.length < limit) (shorter : input.length ≤ size) (roles : RolesFollow input)
    (lacks : (chain inner bound start limit left).Lacks input) :
    Completable (SomeChain bound start left) input := by
  induction limit generalizing input left with
  | zero => omega
  | succ limit ih =>
  rw [chain_succ] at lacks
  rcases input with _ | ⟨failure | token, later⟩
  · exact lacks.elim
  · exact lacks.elim
  rw [lacks_peek_token] at lacks
  simp only [List.length_cons] at within shorter
  have rolesBehind := roles.behind
  cases turn : chainTurn bound (some token) with
  | stop =>
      rw [turn] at lacks
      exact lacks.elim
  | refuse failure =>
      obtain ⟨_, _, _, told⟩ := chainTurn_refuse turn
      rw [turn] at lacks
      have isEnd : failure.fault.isEnd = true := lacks
      rcases told with unexpected | ⟨_, _, invalid⟩
      · rw [unexpected] at isEnd
        cases isEnd
      · rw [invalid] at isEnd
        cases isEnd
  | extend operator =>
      obtain ⟨stands, between, tighter⟩ := chainTurn_extend turn
      rw [turn] at lacks
      rcases lacks_bind.mp (lacks_skip_token.mp lacks) with unread | ⟨right, middle, found, failed⟩
      · apply (finishing.required (by omega) rolesBehind unread).map
        intro more rest ends completed
        obtain ⟨right, derived⟩ := completed
        exact ⟨_, .extend stands between tighter derived (readsChain_stop ends)⟩
      · have derived := (Faithful.required finishing.faithful (by omega)).mp found
        have left := derived.takes.length_le
        have unended := chain_ne_nil failed
        apply (ih (by omega) (by omega) (rolesBehind.of_suffix found.suffix) failed).map
        intro more rest _ completed
        obtain ⟨tree, others⟩ := completed
        exact ⟨tree, .extend stands between tighter
          (derived.append (absurd · unended)) others⟩

/-! ### Whole expressions -/

theorem Finishing.statementThen (finishing : Finishing size inner)
    {statement : Reading Expression}
    (finish : statement.Lacks (.ok token :: input) → Completable (SomeStatement token) input)
    (formed : ∀ {first : Expression} {middle : List TokenItem},
      statement.Accepts (.ok token :: input) first middle →
        ReadsStatement token input first middle)
    (within : input.length < limit) (shorter : input.length ≤ size)
    (roles : RolesFollow (.ok token :: input))
    (lacks : (statementThen inner limit token.location statement).Lacks (.ok token :: input)) :
    Completable (SomeExpression bound) (.ok token :: input) := by
  rcases lacks_bind.mp lacks with unread | ⟨first, middle, found, failed⟩
  · apply (finish unread).map
    intro more rest ends completed
    obtain ⟨first, derived⟩ := completed
    exact ⟨first, .statement derived (readsAccesses_stop ends)⟩
  · have derived := formed found
    have left := derived.shorter
    have unread := lacks_bind_pure.mp failed
    have unended := accesses_ne_nil unread
    apply (finishing.accesses (by omega) (by omega) (roles.of_suffix found.suffix) unread).map
    intro more rest _ completed
    obtain ⟨tree, accessed⟩ := completed
    exact ⟨tree, .statement (derived.append (absurd · unended)) accessed⟩

theorem Finishing.startingWith (finishing : Finishing size inner)
    (within : input.length < limit) (shorter : input.length < size)
    (roles : RolesFollow (.ok token :: input))
    (lacks : (startingWith inner limit bound token).Lacks (.ok token :: input)) :
    Completable (SomeExpression bound) (.ok token :: input) := by
  have rolesBehind := roles.behind
  rw [startingWith_eq] at lacks
  obtain ⟨kind, place⟩ := token
  cases turn : startTurn kind with
  | separator =>
      cases startTurn_kind? (congrArg StartTurn.kind? turn)
      apply (finishing.finish shorter rolesBehind lacks).map
      intro more rest _ completed
      obtain ⟨tree, derived⟩ := completed
      exact ⟨tree, .separator derived⟩
  | brace =>
      rw [turn] at lacks
      exact lacks.elim
  | result =>
      cases startTurn_kind? (congrArg StartTurn.kind? turn)
      exact finishing.statementThen (finishing.resultForm shorter rolesBehind)
        (Faithful.resultForm finishing.faithful shorter).mp within (by omega) roles lacks
  | conditional =>
      cases startTurn_kind? (congrArg StartTurn.kind? turn)
      exact finishing.statementThen (finishing.conditionalForm within shorter rolesBehind)
        (Faithful.conditionalForm finishing.faithful within shorter).mp within (by omega) roles
          lacks
  | loop =>
      cases startTurn_kind? (congrArg StartTurn.kind? turn)
      exact finishing.statementThen (finishing.loopForm within shorter rolesBehind)
        (Faithful.loopForm finishing.faithful within shorter).mp within (by omega) roles lacks
  | operand =>
      rw [turn] at lacks
      rcases lacks_bind.mp lacks with unread | ⟨first, behind, found, failed⟩
      · apply (finishing.operand within shorter roles unread).map
        intro more rest ends completed
        obtain ⟨first, derived⟩ := completed
        exact ⟨first, .operand derived (readsAccesses_stop ends) (readsChain_stop ends)⟩
      · have derived := (Faithful.operand finishing.faithful within shorter).mp found
        have lessBehind := derived.shorter
        have rolesFound := roles.of_suffix found.suffix
        rcases lacks_bind.mp failed with unread | ⟨left, middle, accessed, failed⟩
        · have unended := accesses_ne_nil unread
          apply (finishing.accesses (by omega) (by omega) rolesFound unread).map
          intro more rest ends completed
          obtain ⟨left, following⟩ := completed
          exact ⟨left, .operand (derived.append (absurd · unended)) following
            (readsChain_stop ends)⟩
        · have following :=
            (Faithful.accesses finishing.faithful (by omega) (by omega)).mp accessed
          have lessMiddle := accessed.suffix.length_le
          have unread := lacks_bind_pure.mp failed
          have unended := chain_ne_nil unread
          apply (finishing.chain (by omega) (by omega) (rolesFound.of_suffix accessed.suffix)
            unread).map
          intro more rest _ completed
          obtain ⟨tree, chained⟩ := completed
          have unendedBehind : behind ≠ [] := fun ended =>
            unended (following.rest_of_nil ended)
          exact ⟨tree, .operand (derived.append (absurd · unendedBehind))
            (following.append (absurd · unended)) chained⟩

theorem expression_finishing (limit : Nat) : Finishing limit (expression limit) := by
  induction limit with
  | zero =>
      refine ⟨expression_faithful 0, ?_, ?_⟩
      · intro bound input rest shorter
        omega
      · intro bound input shorter
        omega
  | succ limit ih =>
      refine ⟨expression_faithful (limit + 1), ?_, ?_⟩
      · intro bound input rest shorter accepted
        exact ((expression_accepts_none shorter).mp accepted).1
      · intro bound input shorter roles lacks
        rcases input with _ | ⟨failure | token, later⟩
        · exact lacks.elim
        · exact lacks.elim
        simp only [List.length_cons] at shorter
        exact ih.startingWith (by omega) (by omega) roles lacks

/-! ### Programs -/

theorem programForm_ne_nil {count : Nat} (lacks : (programForm limit count).Lacks input) :
    input ≠ [] := by
  rintro rfl
  cases limit <;> cases count <;> exact lacks.elim

/-- A program that runs out of tokens is the beginning of a program. -/
theorem programForm_completable {count : Nat} (enough : input.length < limit)
    (roles : RolesFollow input) (lacks : (programForm limit count).Lacks input) :
    ∃ (completion : List Token) (trees : List Expression),
      ReadsProgram (input ++ completion.map .ok) trees := by
  induction count generalizing input with
  | zero => exact lacks.elim
  | succ count ih =>
      have finishing := expression_finishing limit
      rcases lacks_bind.mp lacks with unread | ⟨answer, middle, found, failed⟩
      · obtain ⟨completion, complete⟩ := finishing.finish enough roles unread
        obtain ⟨tree, derived⟩ := complete [] trivial
        rw [List.append_nil] at derived
        have solid : tree.isVoid = false := by
          cases empty : tree.isVoid with
          | false => rfl
          | true =>
              obtain ⟨_, _, _, absurdity⟩ := derived.brace_ahead empty
              cases absurdity
        exact ⟨completion, [tree], .expression derived solid (.finish nofun)⟩
      · cases turn : programTurn answer with
        | finish =>
            rw [turn] at failed
            exact failed.elim
        | stray place =>
            rw [turn] at failed
            cases failed
        | element tree =>
            rw [turn] at failed
            have unread := lacks_bind_pure.mp failed
            obtain ⟨rfl, solid⟩ := programTurn_element turn
            have derived := (finishing.faithful enough).mp found
            have less := found.suffix.length_le
            have unended := programForm_ne_nil unread
            obtain ⟨completion, trees, continued⟩ :=
              ih (by omega) (roles.of_suffix found.suffix) unread
            exact ⟨completion, tree :: trees,
              .expression (derived.append (absurd · unended)) solid continued⟩

end Shading.Grammar
