import Shading.Proofs.Acceptance
import Shading.Proofs.Grammar.Yield

/-!
The forms of the grammar accept what can be derived.

Every form is written for a reading of inner expressions and for a limit. If
that reading is faithful to the derivations on shorter lists, and the list is
shorter than the limit, the form is faithful too. So the limit never decides
what is read.
-/

namespace Shading.Grammar

open Reading

/-- A reading of inner expressions accepts what can be derived, on every list that
is shorter than a size. -/
def Faithful (inner : Inner) (size : Nat) : Prop :=
  ∀ {bound : Precedence} {input rest : List TokenItem} {tree : Expression},
    input.length < size →
      ((inner bound).Accepts input (some tree) rest ↔ ReadsExpression bound input tree rest)

variable {inner : Inner} {size limit : Nat} {input rest : List TokenItem} {tree : Expression}

theorem accepts_required {bound : Precedence} :
    (required inner bound).Accepts input tree rest ↔
      (inner bound).Accepts input (some tree) rest := by
  unfold required
  rw [accepts_bind]
  constructor
  · rintro ⟨answer, middle, found, judged⟩
    cases answer with
    | none => cases judged
    | some value =>
        obtain ⟨rfl, rfl⟩ := judged
        exact found
  · intro found
    exact ⟨some tree, rest, found, rfl, rfl⟩

theorem Faithful.required (faithful : Faithful inner size) {bound : Precedence}
    (shorter : input.length < size) :
    (required inner bound).Accepts input tree rest ↔ ReadsExpression bound input tree rest :=
  accepts_required.trans (faithful shorter)

/-! ### Operands -/

theorem variableType?_some {kind : Token.Kind} {type : ValueType}
    (named : variableType? kind = some type) : kind = .typeName (.value type) := by
  unfold variableType? at named
  split at named
  · rw [Option.some.inj named]
  · cases named

theorem accepts_variableForm {start : Location} {token : Token} :
    (variableForm start).Accepts (.ok token :: input) tree rest ↔
      ∃ type name typePlace namePlace,
        input = .ok ⟨.typeName (.value type), typePlace⟩ :: .ok ⟨.name name, namePlace⟩ :: rest ∧
          tree = .declaration type name start := by
  unfold variableForm
  rw [accepts_skip_token]
  simp only [accepts_bind, accepts_next]
  constructor
  · rintro ⟨⟨kind, typePlace⟩, middle, split, judged⟩
    cases named : variableType? kind with
    | none =>
        rw [named] at judged
        cases judged
    | some type =>
        rw [named] at judged
        simp only [accepts_bind, accepts_expectName, accepts_pure] at judged
        obtain ⟨⟨name, namePlace⟩, behindName, splitName, rfl, rfl⟩ := judged
        cases variableType?_some named
        exact ⟨type, name, typePlace, namePlace, by rw [split, splitName], rfl⟩
  · rintro ⟨type, name, typePlace, namePlace, rfl, rfl⟩
    refine ⟨_, _, rfl, ?_⟩
    simp only [variableType?, accepts_bind, accepts_expectName, accepts_pure]
    exact ⟨(name, namePlace), rest, rfl, rfl, rfl⟩

theorem accepts_pipelineForm {start : Location} {token : Token} :
    (pipelineForm start).Accepts (.ok token :: input) tree rest ↔
      ∃ kind role name rolePlace namePlace, pipelineRole? kind = some role ∧
        input = .ok ⟨kind, rolePlace⟩ :: .ok ⟨.name name, namePlace⟩ :: rest ∧
          tree = .pipeline role name start := by
  unfold pipelineForm
  rw [accepts_skip_token]
  simp only [accepts_bind, accepts_next, accepts_expectName]
  constructor
  · rintro ⟨⟨kind, rolePlace⟩, middle, split, ⟨name, namePlace⟩, behindName, splitName, judged⟩
    cases named : pipelineRole? kind with
    | none =>
        rw [named] at judged
        cases judged
    | some role =>
        rw [named] at judged
        obtain ⟨rfl, rfl⟩ := judged
        exact ⟨kind, role, name, rolePlace, namePlace, named, by rw [split, splitName], rfl⟩
  · rintro ⟨kind, role, name, rolePlace, namePlace, named, rfl, rfl⟩
    refine ⟨_, _, rfl, (name, namePlace), rest, rfl, ?_⟩
    rw [named]
    exact ⟨rfl, rfl⟩

/-! ### Arguments -/

section Arguments

variable {token : Token} {place : Location} {standing : ArgumentPlace} {values : List Expression}

theorem arguments_close (complete : standing ≠ .afterComma) :
    (arguments inner (limit + 1) standing).Accepts
      (.ok ⟨.mark .rightParenthesis, place⟩ :: input) values rest ↔
        values = [] ∧ rest = input := by
  have stepped : (arguments inner (limit + 1) standing).Accepts
      (.ok ⟨.mark .rightParenthesis, place⟩ :: input) values rest ↔
        ([] : List Expression) = values ∧ input = rest := by
    cases standing with
    | afterComma => exact absurd rfl complete
    | atFirst => exact Iff.rfl
    | afterArgument => exact Iff.rfl
  rw [stepped, eq_comm, @eq_comm _ input]

theorem arguments_comma :
    (arguments inner (limit + 1) standing).Accepts
      (.ok ⟨.mark .comma, place⟩ :: input) values rest ↔
        standing = .afterArgument ∧
          (arguments inner limit .afterComma).Accepts input values rest := by
  cases standing with
  | afterArgument => exact (and_iff_right rfl).symm
  | atFirst => simp only [reduceCtorEq, false_and]; exact Iff.rfl
  | afterComma => simp only [reduceCtorEq, false_and]; exact Iff.rfl

theorem arguments_argument
    (begins : token.kind ≠ .mark .rightParenthesis ∧ token.kind ≠ .mark .comma) :
    (arguments inner (limit + 1) standing).Accepts (.ok token :: input) values rest ↔
      standing ≠ .afterArgument ∧
        ∃ value middle others, (required inner .lowest).Accepts (.ok token :: input) value middle ∧
          (arguments inner limit .afterArgument).Accepts middle others rest ∧
            values = value :: others := by
  rw [arguments, accepts_peek_token]
  dsimp only
  split
  · exact absurd ‹_› begins.1
  · exact absurd ‹_› begins.1
  · exact absurd ‹_› begins.2
  · exact absurd ‹_› begins.2
  · simp
  · rename_i expected _ _ _ _
    simp only [accepts_bind, accepts_pure]
    constructor
    · rintro ⟨value, middle, first, others, _, following, rfl, rfl⟩
      exact ⟨expected, value, middle, others, first, following, rfl⟩
    · rintro ⟨_, value, middle, others, first, following, rfl⟩
      exact ⟨value, middle, first, others, rest, following, rfl, rfl⟩

theorem Faithful.arguments (faithful : Faithful inner size)
    (within : input.length < limit) (shorter : input.length < size) :
    (arguments inner limit standing).Accepts input values rest ↔
      ReadsArguments standing input values rest := by
  induction limit generalizing input standing values with
  | zero => omega
  | succ limit ih =>
      -- An argument takes a token, or it is empty and the brace ahead stops the list.
      have behind {value : Expression} {middle : List TokenItem} {others : List Expression}
          (derived : ReadsExpression .lowest input value middle) :
          (Grammar.arguments inner limit .afterArgument).Accepts middle others rest ↔
            ReadsArguments .afterArgument middle others rest := by
        cases solid : value.isVoid with
        | false =>
            have progress := derived.shorter solid
            exact ih (by omega) (by omega)
        | true =>
            obtain ⟨place, later, _, rfl⟩ := derived.brace_ahead solid
            have some := derived.takes.length_le
            rw [List.length_cons] at some
            obtain ⟨limit, rfl⟩ := Nat.exists_eq_add_of_lt (show 0 < limit by omega)
            rw [arguments_argument (by simp)]
            constructor
            · rintro ⟨refused, _⟩
              exact absurd rfl refused
            · intro listed
              cases listed
              contradiction
      rcases input with _ | ⟨failure | ⟨kind, place⟩, later⟩
      · constructor <;> intro accepted <;> cases accepted
      · constructor <;> intro accepted <;> cases accepted
      by_cases closing : kind = .mark .rightParenthesis
      · subst closing
        by_cases complete : standing = .afterComma
        · subst complete
          constructor
          · intro accepted
            cases accepted
          · intro derived
            cases derived with
            | close complete => exact absurd rfl complete
            | argument _ begins _ _ => exact absurd rfl begins.1
        · rw [arguments_close complete]
          constructor
          · rintro ⟨rfl, rfl⟩
            exact .close complete
          · intro derived
            cases derived with
            | close _ => exact ⟨rfl, rfl⟩
            | argument _ begins _ _ => exact absurd rfl begins.1
      by_cases comma : kind = .mark .comma
      · subst comma
        rw [arguments_comma]
        simp only [List.length_cons] at within shorter
        constructor
        · rintro ⟨rfl, others⟩
          exact .comma ((ih (by omega) (by omega)).mp others)
        · intro derived
          cases derived with
          | comma others => exact ⟨rfl, (ih (by omega) (by omega)).mpr others⟩
          | argument _ begins _ _ => exact absurd rfl begins.2
      rw [arguments_argument ⟨closing, comma⟩]
      constructor
      · rintro ⟨expected, value, middle, others, first, following, rfl⟩
        have derived := (faithful.required shorter).mp first
        exact .argument expected ⟨closing, comma⟩ derived ((behind derived).mp following)
      · intro derived
        cases derived with
        | close _ => exact absurd rfl closing
        | comma _ => exact absurd rfl comma
        | argument expected _ derived others =>
            exact ⟨expected, _, _, _, (faithful.required shorter).mpr derived,
              (behind derived).mpr others, rfl⟩

end Arguments

/-! ### Operands -/

section Operands

variable {token : Token}

theorem Faithful.callForm (faithful : Faithful inner size) {name : String} {start : Location}
    (within : input.length < limit) (shorter : input.length < size) :
    (callForm inner limit name start).Accepts (.ok token :: input) tree rest ↔
      ∃ openPlace later values, input = .ok ⟨.mark .leftParenthesis, openPlace⟩ :: later ∧
        ReadsArguments .atFirst later values rest ∧ tree = .call name values start := by
  have stepped : (Grammar.callForm inner limit name start).Accepts (.ok token :: input) tree rest ↔
      ∃ opening later values, opening.kind = .mark .leftParenthesis ∧
        input = .ok opening :: later ∧
          (Grammar.arguments inner limit .atFirst).Accepts later values rest ∧
            tree = .call name values start := by
    unfold Grammar.callForm
    rw [accepts_skip_token]
    constructor
    · intro judged
      rcases input with _ | ⟨failure | opening, later⟩
      · cases judged
      · cases judged
      rw [accepts_peek_token] at judged
      simp only [accepts_bind, accepts_expect, accepts_pure] at judged
      obtain ⟨_, _, ⟨opens, opened⟩, values, _, listed, rfl, rfl⟩ := judged
      exact ⟨_, _, values, opens, opened, listed, rfl⟩
    · rintro ⟨opening, later, values, opens, rfl, listed, rfl⟩
      rw [accepts_peek_token]
      simp only [accepts_bind, accepts_expect, accepts_pure]
      exact ⟨opening, later, ⟨opens, rfl⟩, values, rest, listed, rfl, rfl⟩
  rw [stepped]
  constructor
  · rintro ⟨⟨kind, place⟩, later, values, opens, rfl, listed, rfl⟩
    cases opens
    simp only [List.length_cons] at within shorter
    exact ⟨place, later, values, rfl,
      (faithful.arguments (by omega) (by omega)).mp listed, rfl⟩
  · rintro ⟨openPlace, later, values, rfl, listed, rfl⟩
    simp only [List.length_cons] at within shorter
    exact ⟨_, later, values, rfl, rfl,
      (faithful.arguments (by omega) (by omega)).mpr listed, rfl⟩

theorem Faithful.unaryForm (faithful : Faithful inner size) {operator : Operator}
    {start : Location} (shorter : input.length < size) :
    (unaryForm inner operator start).Accepts (.ok token :: input) tree rest ↔
      operator.standsBefore = true ∧ ∃ value,
        ReadsExpression operator.operandPrecedence input value rest ∧
          tree = .unary operator value start := by
  unfold Grammar.unaryForm
  rw [accepts_skip_token]
  constructor
  · intro judged
    split at judged
    · rename_i before
      simp only [accepts_bind, accepts_pure] at judged
      obtain ⟨value, _, following, rfl, rfl⟩ := judged
      exact ⟨before, value, (faithful.required shorter).mp following, rfl⟩
    · cases judged
  · rintro ⟨before, value, following, rfl⟩
    rw [if_pos before, accepts_bind]
    exact ⟨value, rest, (faithful.required shorter).mpr following, rfl, rfl⟩

theorem Faithful.parenthesizedForm (faithful : Faithful inner size) {start : Location}
    (shorter : input.length < size) :
    (parenthesizedForm inner start).Accepts (.ok token :: input) tree rest ↔
      ∃ value closePlace, ReadsExpression .lowest input value
        (.ok ⟨.mark .rightParenthesis, closePlace⟩ :: rest) ∧
          tree = .parenthesized value start := by
  unfold Grammar.parenthesizedForm
  rw [accepts_skip_token]
  simp only [accepts_bind, accepts_expect, accepts_pure]
  constructor
  · rintro ⟨value, middle, following, ⟨kind, place⟩, _, ⟨closing, rfl⟩, rfl, rfl⟩
    cases closing
    exact ⟨value, place, (faithful.required shorter).mp following, rfl⟩
  · rintro ⟨value, closePlace, following, rfl⟩
    exact ⟨value, _, (faithful.required shorter).mpr following, _, rest, ⟨rfl, rfl⟩, rfl, rfl⟩

theorem accepts_singleForm {single : Expression} :
    (singleForm single).Accepts (.ok token :: input) tree rest ↔ tree = single ∧ rest = input := by
  unfold singleForm
  rw [accepts_skip_token, accepts_pure, eq_comm, @eq_comm _ input]

theorem Faithful.operand (faithful : Faithful inner size)
    (within : input.length < limit) (shorter : input.length < size) :
    (operand inner limit token).Accepts (.ok token :: input) tree rest ↔
      ReadsOperand token input tree rest := by
  obtain ⟨kind, place⟩ := token
  unfold Grammar.operand
  dsimp only
  split
  · rw [faithful.callForm within shorter]
    constructor
    · rintro ⟨openPlace, later, values, rfl, listed, rfl⟩
      exact .call listed
    · intro derived
      cases derived with
      | call listed => exact ⟨_, _, _, rfl, listed, rfl⟩
      | unary stands _ _ => cases stands
  · rw [accepts_variableForm]
    constructor
    · rintro ⟨type, name, typePlace, namePlace, rfl, rfl⟩
      exact .declaration
    · intro derived
      cases derived with
      | declaration => exact ⟨_, _, _, _, rfl, rfl⟩
      | unary stands _ _ => cases stands
  · rw [accepts_pipelineForm]
    constructor
    · rintro ⟨kind, role, name, rolePlace, namePlace, named, rfl, rfl⟩
      exact .pipeline named
    · intro derived
      cases derived with
      | pipeline named => exact ⟨_, _, _, _, _, named, rfl, rfl⟩
      | unary stands _ _ => cases stands
  · rw [faithful.parenthesizedForm shorter]
    constructor
    · rintro ⟨value, closePlace, following, rfl⟩
      exact .parenthesized following
    · intro derived
      cases derived with
      | parenthesized following => exact ⟨_, _, following, rfl⟩
      | unary stands _ _ => cases stands
  · rw [accepts_singleForm]
    constructor
    · rintro ⟨rfl, rfl⟩
      exact .number
    · intro derived
      cases derived with
      | number => exact ⟨rfl, rfl⟩
      | unary stands _ _ => cases stands
  · rw [accepts_singleForm]
    constructor
    · rintro ⟨rfl, rfl⟩
      exact .truth
    · intro derived
      cases derived with
      | truth => exact ⟨rfl, rfl⟩
      | unary stands _ _ => cases stands
  · rw [accepts_singleForm]
    constructor
    · rintro ⟨rfl, rfl⟩
      exact .falsehood
    · intro derived
      cases derived with
      | falsehood => exact ⟨rfl, rfl⟩
      | unary stands _ _ => cases stands
  · split
    · rename_i operator stands
      rw [faithful.unaryForm shorter]
      constructor
      · rintro ⟨before, value, following, rfl⟩
        exact .unary stands before following
      · intro derived
        cases derived with
        | unary found before following =>
            cases stands.symm.trans found
            exact ⟨before, _, following, rfl⟩
        | _ => cases stands
    · rename_i notName _ _ _ notNumber _ _ _ stands
      constructor
      · intro accepted
        cases accepted
      · intro derived
        cases derived with
        | unary found _ _ => cases stands.symm.trans found
        | number => exact (notNumber _ rfl).elim
        | call _ => exact (notName _ rfl).elim
        | _ => contradiction

end Operands

end Shading.Grammar
