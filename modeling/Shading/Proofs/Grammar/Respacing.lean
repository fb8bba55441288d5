import Shading.Proofs.Course

/-!
Separators that are repeated.

Two lists have the same tokens but for separators that are repeated in the first one. They
are read alike: wherever a semicolon may stand, any number may, and wherever none may, the
first of them is refused. One place is different. Behind the sign of a value of the pipeline
a semicolon is taken for a role, and it is judged only when the token behind it was seen to
be a name; there the second of two semicolons shows.
-/

namespace Shading

/-! ### The same tokens -/

/-- The same tokens, with separators repeated in the first list. Where that is loose, the
first list may also have separators at its end where the second has none. -/
inductive Respaced (loose : Prop) : List Token → List Token → Prop where
  | nothing : Respaced loose [] []
  | token {token : Token} {left right : List Token} (solid : token.kind ≠ .mark .semicolon)
      (behind : Respaced loose left right) : Respaced loose (token :: left) (token :: right)
  | separator {first second : Location} {left right : List Token}
      (behind : Respaced loose left right) :
      Respaced loose (⟨.mark .semicolon, first⟩ :: left) (⟨.mark .semicolon, second⟩ :: right)
  | repeated {first second : Location} {left right : List Token}
      (behind : Respaced loose left (⟨.mark .semicolon, second⟩ :: right)) :
      Respaced loose (⟨.mark .semicolon, first⟩ :: left) (⟨.mark .semicolon, second⟩ :: right)
  | spare {place : Location} {separators : List Token} (free : loose)
      (only : ∀ token ∈ separators, token.kind = .mark .semicolon) :
      Respaced loose (⟨.mark .semicolon, place⟩ :: separators) []

def NotAhead (kind : Token.Kind) (tokens : List Token) : Prop :=
  ∀ token ∈ tokens.head?, token.kind ≠ kind

inductive Abreast (loose : Prop) : List Token → List Token → Prop where
  | ended : Abreast loose [] []
  | token {token : Token} {left right : List Token} (solid : token.kind ≠ .mark .semicolon)
      (behind : Respaced loose left right) : Abreast loose (token :: left) (token :: right)
  | separators {first second : Location} {left right : List Token} :
      Abreast loose (⟨.mark .semicolon, first⟩ :: left) (⟨.mark .semicolon, second⟩ :: right)
  | spare {place : Location} {left : List Token} (free : loose) :
      Abreast loose (⟨.mark .semicolon, place⟩ :: left) []

def Fault.refusing : Option Token → Fault
  | none => .unexpectedEnd
  | some token => .unexpectedToken token.kind

/-- A reading was given up at the second of several semicolons behind the sign of a value of
the pipeline. Another one, of one semicolon, was given up behind it, where no name stands. -/
inductive Stumbled : List Token → Fault → Fault → Standing → Prop where
  | behindSign {before run behind : List Token} {sign first second : Location}
      (only : ∀ token ∈ run, token.kind = .mark .semicolon)
      (maximal : NotAhead (.mark .semicolon) behind)
      (nameless : ∀ name, NotAhead (.name name) behind) :
      Stumbled (before ++ ⟨.mark .at, sign⟩ :: ⟨.mark .semicolon, first⟩ ::
          ⟨.mark .semicolon, second⟩ :: (run ++ behind))
        (.unexpectedToken (.mark .semicolon)) (.refusing behind.head?) ⟨false, run ++ behind⟩

variable {loose : Prop} {size limit : Nat} {α β : Type} {left right start : List Token}

theorem Respaced.abreast (respaced : Respaced loose left right) : Abreast loose left right := by
  cases respaced with
  | nothing => exact .ended
  | token solid behind => exact .token solid behind
  | separator _ => exact .separators
  | repeated _ => exact .separators
  | spare free _ => exact .spare free

theorem Respaced.length_le (respaced : Respaced loose left right) :
    right.length ≤ left.length := by
  induction respaced with
  | nothing => exact Nat.le_refl _
  | token _ _ ih => exact Nat.succ_le_succ ih
  | separator _ ih => exact Nat.succ_le_succ ih
  | repeated _ ih => exact Nat.le_succ_of_le ih
  | spare _ _ => exact Nat.zero_le _

theorem Respaced.run_ahead {place : Location}
    (respaced : Respaced loose left (⟨.mark .semicolon, place⟩ :: right))
    (maximal : NotAhead (.mark .semicolon) right) :
    ∃ first run behind, left = ⟨.mark .semicolon, first⟩ :: (run ++ behind) ∧
      (∀ token ∈ run, token.kind = .mark .semicolon) ∧ behind.head? = right.head? := by
  generalize shown : (⟨.mark .semicolon, place⟩ :: right : List Token) = other at respaced
  induction respaced with
  | nothing => cases shown
  | token solid _ =>
      cases shown
      exact absurd rfl solid
  | @separator first _ left _ behind =>
      cases shown
      cases behind.abreast with
      | ended => exact ⟨first, [], [], rfl, by simp, rfl⟩
      | @token token left right solid _ => exact ⟨first, [], token :: left, rfl, by simp, rfl⟩
      | separators => exact absurd rfl (maximal _ rfl)
      | @spare found separators _ =>
          cases behind with
          | spare _ only =>
              refine ⟨first, ⟨.mark .semicolon, found⟩ :: separators, [], ?_, ?_, rfl⟩
              · rw [List.append_nil]
              · exact List.forall_mem_cons.mpr ⟨rfl, only⟩
  | @repeated first _ _ _ _ ih =>
      obtain ⟨next, run, behind, rfl, only, ahead⟩ := ih shown
      cases shown
      refine ⟨first, ⟨.mark .semicolon, next⟩ :: run, behind, rfl, ?_, ahead⟩
      exact List.forall_mem_cons.mpr ⟨rfl, only⟩
  | spare _ _ => cases shown

theorem Respaced.of_separators {separators : List Token} (free : loose)
    (only : ∀ token ∈ separators, token.kind = .mark .semicolon) :
    Respaced loose separators [] := by
  rcases separators with _ | ⟨⟨kind, place⟩, others⟩
  · exact .nothing
  · obtain ⟨separator, following⟩ := List.forall_mem_cons.mp only
    cases separator
    exact .spare free following

/-! ### Readings that agree -/

/-- Over such lists two readings answer the same and leave such lists, or both fail, with the
same fault unless the first stumbled. Where the lists are loose the faults may differ. -/
inductive Agree (loose : Prop) (size : Nat) (start : List Token) :
    Except Fault α × Standing → Except Fault α × Standing → Prop where
  | answered {value : α} {left right : Standing} (behind : Respaced loose left.rest right.rest)
      (shorter : left.rest.length < size) :
      Agree loose size start (.ok value, left) (.ok value, right)
  | failed {fault other : Fault} {left right : Standing}
      (told : loose ∨ fault = other ∨ Stumbled start fault other left) :
      Agree loose size start (.error fault, left) (.error other, right)

namespace Agree

variable {first second : Except Fault α × Standing}

theorem lift {longer : List Token} (agree : Agree loose size start first second)
    (suffix : start <:+ longer) : Agree loose size longer first second := by
  cases agree with
  | answered behind shorter => exact .answered behind shorter
  | failed told =>
      apply failed
      rcases told with free | same | @⟨before, run, behind, _, _, _, only, maximal, nameless⟩
      · exact .inl free
      · exact .inr (.inl same)
      · obtain ⟨skipped, rfl⟩ := suffix
        rw [← List.append_assoc]
        exact .inr (.inr (.behindSign only maximal nameless))

theorem mono {larger : Nat} (agree : Agree loose size start first second) (le : size ≤ larger) :
    Agree loose larger start first second := by
  cases agree with
  | answered behind shorter => exact .answered behind (Nat.lt_of_lt_of_le shorter le)
  | failed told => exact .failed told

theorem congr {other : Except Fault α × Standing} (agree : Agree loose size start first second)
    (answer : second.1 = other.1) (rest : second.2.rest = other.2.rest) :
    Agree loose size start first other := by
  obtain ⟨_, _, _⟩ := other
  cases agree with
  | answered behind shorter =>
      cases answer
      cases rest
      exact .answered behind shorter
  | failed told =>
      cases answer
      exact .failed told

theorem bind {one other : Reading α} {following others : α → Reading β} {seen seenOther : Bool}
    (agree : Agree loose size left (one.course ⟨seen, left⟩) (other.course ⟨seenOther, right⟩))
    (behind : ∀ {value : α} {here there : Bool} {rest otherRest : List Token},
      one.course ⟨seen, left⟩ = (.ok value, ⟨here, rest⟩) → Respaced loose rest otherRest →
        rest.length < size →
          Agree loose size rest ((following value).course ⟨here, rest⟩)
            ((others value).course ⟨there, otherRest⟩)) :
    Agree loose size left ((one >>= following).course ⟨seen, left⟩)
      ((other >>= others).course ⟨seenOther, right⟩) := by
  have suffix := one.course_suffix ⟨seen, left⟩
  rw [Reading.course_bind, Reading.course_bind]
  rcases ran : one.course ⟨seen, left⟩ with ⟨fault | value, stopped⟩
  · rw [ran] at agree
    rcases ranOther : other.course ⟨seenOther, right⟩ with ⟨otherFault | otherValue, stoppedOther⟩
    · rw [ranOther] at agree
      cases agree with
      | failed told => exact .failed told
    · rw [ranOther] at agree
      cases agree
  · rw [ran] at agree suffix
    rcases ranOther : other.course ⟨seenOther, right⟩ with ⟨otherFault | otherValue, stoppedOther⟩
    · rw [ranOther] at agree
      cases agree
    · rw [ranOther] at agree
      cases agree with
      | answered respaced shorter => exact (behind ran respaced shorter).lift suffix

end Agree

/-! ### Steps -/

structure Tolerates (loose : Prop) (size : Nat) (reading : Reading α) : Prop where
  agree : ∀ {left right : List Token} (seen seenOther : Bool), Respaced loose left right →
    left.length < size →
      Agree loose size left (reading.course ⟨seen, left⟩) (reading.course ⟨seenOther, right⟩)

structure Proceeds (loose : Prop) (size : Nat) (token : Token) (reading : Reading α) : Prop where
  agree : ∀ {left right : List Token}, Respaced loose left right → left.length < size →
    Agree loose size (token :: left) (reading.course ⟨true, token :: left⟩)
      (reading.course ⟨true, token :: right⟩)

section Steps

variable {reading : Reading α} {following : α → Reading β} {token : Token}

theorem Tolerates.bind (tolerates : Tolerates loose size reading)
    (behind : ∀ value, Tolerates loose size (following value)) :
    Tolerates loose size (reading >>= following) := by
  constructor
  intro left right seen seenOther respaced shorter
  apply (tolerates.agree _ _ respaced shorter).bind
  intro value here there rest otherRest _ respaced shorter
  exact (behind value).agree _ _ respaced shorter

theorem Proceeds.bind (proceeds : Proceeds loose size token reading)
    (behind : ∀ value, Tolerates loose size (following value)) :
    Proceeds loose size token (reading >>= following) := by
  constructor
  intro left right respaced shorter
  apply (proceeds.agree respaced shorter).bind
  intro value here there rest otherRest _ respaced shorter
  exact (behind value).agree _ _ respaced shorter

theorem Proceeds.skip {following : Unit → Reading α}
    (behind : Tolerates loose size (following ())) :
    Proceeds loose size token (Reading.skip >>= following) := by
  constructor
  intro left right respaced shorter
  have skipped : Agree loose size left ((following ()).course ⟨false, left⟩)
      ((following ()).course ⟨false, right⟩) := behind.agree _ _ respaced shorter
  exact skipped.lift (List.suffix_cons token left)

theorem tolerates_pure (value : α) : Tolerates loose size (pure value) :=
  ⟨fun _ _ respaced shorter => .answered respaced shorter⟩

theorem tolerates_fail (failure : SyntaxError) :
    Tolerates loose size (Reading.fail failure : Reading α) :=
  ⟨fun _ _ _ _ => .failed (.inr (.inl rfl))⟩

theorem tolerates_failAtLast (fault : Fault) :
    Tolerates loose size (Reading.failAtLast fault : Reading α) :=
  ⟨fun _ _ _ _ => .failed (.inr (.inl rfl))⟩

theorem course_bind_error {standing stopped : Standing} {fault : Fault}
    (failed : reading.course standing = (.error fault, stopped)) :
    (reading >>= following).course standing = (.error fault, stopped) := by
  rw [Reading.course_bind, failed]

theorem tolerates_next {following : Token → Reading α} (fault : Fault)
    (behind : ∀ token, Tolerates loose size (following token))
    (refuses : ∀ place standing, (following ⟨.mark .semicolon, place⟩).course standing =
      (.error fault, standing)) :
    Tolerates loose size (Reading.next >>= following) := by
  constructor
  intro left right seen seenOther respaced shorter
  have taken : ∀ seen place later,
      (Reading.next >>= following).course ⟨seen, ⟨.mark .semicolon, place⟩ :: later⟩ =
        (.error fault, ⟨false, later⟩) := fun _ place later => refuses place ⟨false, later⟩
  cases respaced.abreast with
  | ended => exact .failed (.inr (.inl rfl))
  | @token token left right solid spaced =>
      have less : left.length < size := Nat.lt_of_succ_lt shorter
      have followed : Agree loose size left ((following token).course ⟨false, left⟩)
          ((following token).course ⟨false, right⟩) :=
        (behind token).agree _ _ spaced less
      exact followed.lift (List.suffix_cons token left)
  | separators =>
      rw [taken, taken]
      exact .failed (.inr (.inl rfl))
  | spare free =>
      rw [taken]
      exact .failed (.inl free)

theorem tolerates_expect {kind : Token.Kind} (solid : kind ≠ .mark .semicolon) :
    Tolerates loose size (Reading.expect kind) := by
  apply tolerates_next (.unexpectedToken (.mark .semicolon))
  · intro token
    by_cases same : token.kind = kind
    · rw [if_pos same]
      exact tolerates_pure token
    · rw [if_neg same]
      exact tolerates_fail _
  · intro place standing
    rw [if_neg solid.symm]
    rfl

theorem tolerates_expectName : Tolerates loose size Reading.expectName := by
  apply tolerates_next (.unexpectedToken (.mark .semicolon))
  · intro token
    obtain ⟨kind, place⟩ := token
    cases kind with
    | name name => exact tolerates_pure (name, place)
    | _ => exact tolerates_fail _
  · intro place standing
    rfl

theorem agree_ended (reading : Reading α) {standing : Standing} (ended : standing.rest = [])
    (room : 0 < size) :
    Agree loose size [] (reading.course standing) (reading.course standing) := by
  have suffix := reading.course_suffix standing
  rw [ended] at suffix
  rcases ran : reading.course standing with ⟨fault | value, stopped⟩
  · exact .failed (.inr (.inl rfl))
  · rw [ran] at suffix
    have nothing : stopped.rest = [] := List.suffix_nil.mp suffix
    apply Agree.answered
    · rw [nothing]
      exact .nothing
    · rw [nothing]
      exact room

theorem tolerates_peek {following : Option Token → Reading α}
    (token : ∀ {token : Token} {left right : List Token}, token.kind ≠ .mark .semicolon →
      Respaced loose left right → (token :: left).length < size →
        Agree loose size (token :: left) ((following (some token)).course ⟨true, token :: left⟩)
          ((following (some token)).course ⟨true, token :: right⟩))
    (separators : ∀ {first second : Token} {left right : List Token},
      first.kind = .mark .semicolon → second.kind = .mark .semicolon →
        Respaced loose (first :: left) (second :: right) → (first :: left).length < size →
          Agree loose size (first :: left) ((following (some first)).course ⟨true, first :: left⟩)
            ((following (some second)).course ⟨true, second :: right⟩))
    (spare : loose → ∀ {token : Token} {left : List Token}, token.kind = .mark .semicolon →
      Respaced loose (token :: left) [] → (token :: left).length < size →
        Agree loose size (token :: left) ((following (some token)).course ⟨true, token :: left⟩)
          ((following none).course ⟨false, []⟩)) :
    Tolerates loose size (Reading.peek >>= following) := by
  constructor
  intro left right seen seenOther respaced shorter
  cases respaced.abreast with
  | ended => exact agree_ended (following none) rfl shorter
  | token solid behind => exact token solid behind shorter
  | separators => exact separators rfl rfl respaced shorter
  | spare free => exact spare free rfl respaced shorter

theorem tolerates_peek_stopping {following : Option Token → Reading α} (value : α)
    (ended : following none = pure value)
    (stops : ∀ place, following (some ⟨.mark .semicolon, place⟩) = pure value)
    (token : ∀ {token : Token} {left right : List Token}, token.kind ≠ .mark .semicolon →
      Respaced loose left right → (token :: left).length < size →
        Agree loose size (token :: left) ((following (some token)).course ⟨true, token :: left⟩)
          ((following (some token)).course ⟨true, token :: right⟩)) :
    Tolerates loose size (Reading.peek >>= following) := by
  apply tolerates_peek token
  · rintro ⟨_, first⟩ ⟨_, second⟩ left right ⟨⟩ ⟨⟩ respaced shorter
    rw [stops, stops]
    exact .answered respaced shorter
  · rintro free ⟨_, place⟩ left ⟨⟩ respaced shorter
    rw [stops, ended]
    exact .answered respaced shorter

end Steps

end Shading
