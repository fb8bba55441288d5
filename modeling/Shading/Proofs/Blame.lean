import Shading.Grammar.Operand
import Shading.Proofs.Trail

/-!
What an error may say of the tokens that were read.

An error tells of the last token that was shown, or it says that the tokens ended
and stands at the last of them. There is one exception: behind the sign of a
pipeline value the name is read before the role is judged. `Fair` is the weakest
condition under which a reading keeps to this, whatever the tokens are.
-/

namespace Shading

/-! ### Errors and tokens -/

def Fault.isEnd : Fault → Bool
  | unexpectedEnd | expectedExpression | expectedParameterList => true
  | _ => false

/-- The fault is about a token of this kind: it shows the kind, or the operator that
the kind spells. -/
def Fault.TellsOf : Fault → Token.Kind → Prop
  | unexpectedToken found, kind => found = kind
  | unsupportedType found, kind => found = kind
  | invalidPrefixOperator operator, kind => kind.operator? = some operator
  | invalidInfixOperator operator, kind => kind.operator? = some operator
  | _, _ => False

def SyntaxError.Names (failure : SyntaxError) (token : Token) : Prop :=
  failure.location = token.location ∧ failure.fault.TellsOf token.kind

theorem Fault.TellsOf.isEnd_eq_false {fault : Fault} {kind : Token.Kind}
    (tells : fault.TellsOf kind) : fault.isEnd = false := by
  cases fault with
  | unexpectedEnd => cases tells
  | expectedExpression => cases tells
  | expectedParameterList => cases tells
  | _ => rfl

/-- The error is about the last of these tokens. Or they end in the sign of a pipeline
value, in what is no role, and in a name, and the error is about what is no role. -/
inductive SyntaxError.Blames : SyntaxError → List Token → Prop where
  | last {failure : SyntaxError} {before : List Token} {token : Token}
      (names : failure.Names token) : failure.Blames (before ++ [token])
  | role {before : List Token} {sign found name : Token} {text : String}
      (atSign : sign.kind = .mark .at) (noRole : Grammar.pipelineRole? found.kind = none)
      (named : name.kind = .name text) :
      Blames ⟨found.location, .unexpectedToken found.kind⟩ (before ++ [sign, found, name])

theorem SyntaxError.Blames.ne_nil {failure : SyntaxError} {tokens : List Token}
    (blames : failure.Blames tokens) : tokens ≠ [] := by
  cases blames <;> exact List.append_ne_nil_of_right_ne_nil _ (List.cons_ne_nil _ _)

theorem SyntaxError.Blames.location_mem {failure : SyntaxError} {tokens : List Token}
    (blames : failure.Blames tokens) : ∃ token ∈ tokens, failure.location = token.location := by
  cases blames with
  | @last _ before token names => exact ⟨token, by simp, names.1⟩
  | @role before sign found name text atSign noRole named => exact ⟨found, by simp, rfl⟩

/-- What a trail must show where a reading fails. -/
inductive Halt.Justified : Halt → Trail → Prop where
  | item {failure : SyntaxError} {trail : Trail} : (item failure).Justified trail
  | ended {fault : Fault} {before : List TokenItem} {last : Token} (isEnd : fault.isEnd = true) :
      (atLast fault).Justified ⟨before ++ [.ok last], some none⟩
  /-- The name of a function is the last token there is. -/
  | parameters {before : List TokenItem} {last : Token} :
      (own ⟨last.location, .expectedParameterList⟩).Justified ⟨before ++ [.ok last], some none⟩
  | ahead {failure : SyntaxError} {taken : List TokenItem} {token : Token}
      (names : failure.Names token) : (own failure).Justified ⟨taken, some (some (.ok token))⟩
  | taken {failure : SyntaxError} {before : List TokenItem} {token : Token}
      (names : failure.Names token) : (own failure).Justified ⟨before ++ [.ok token], none⟩
  /-- What stands behind the sign of a pipeline value is no role, but a name follows it. -/
  | role {before : List TokenItem} {place namePlace : Location} {found : Token} {name : String}
      (noRole : Grammar.pipelineRole? found.kind = none) :
      (own ⟨found.location, .unexpectedToken found.kind⟩).Justified
        ⟨before ++ [.ok ⟨.mark .at, place⟩] ++ [.ok found] ++ [.ok ⟨.name name, namePlace⟩], none⟩

theorem append_singleton_of_map {before : List TokenItem} {last : Token} {shown : List Token}
    (same : before ++ [.ok last] = shown.map .ok) :
    ∃ others, before = others.map .ok ∧ shown = others ++ [last] := by
  obtain ⟨others, final, rfl, rfl, single⟩ := List.map_eq_append_iff.mp same.symm
  obtain ⟨token, rfl, kept⟩ := List.map_eq_singleton_iff.mp single
  cases kept
  exact ⟨others, rfl, rfl⟩

theorem Trail.lastPlace_onto {trail : Trail} {before : List TokenItem} {last : Token}
    (taken : trail.taken = before ++ [.ok last]) (base : Parser (List TokenItem))
    (later : List TokenItem) : (trail.onto base later).lastPlace = last.location := by
  unfold Parser.lastPlace onto
  rw [taken, List.getLast?_concat]
  rfl

/-- A justified failure is the end of the tokens, told where the last one stands, or
it blames the tokens that were shown. -/
theorem Halt.Justified.cases_tokens {halt : Halt} {after : Trail} {shown : List Token}
    (justified : halt.Justified after) (tokens : after.shown = shown.map .ok)
    (unmet : ∀ failure, halt ≠ .item failure) :
    (after.ahead = some none ∧ ∃ before last fault, shown = before ++ [last] ∧
      fault.isEnd = true ∧
        ∀ base later, halt.failure (after.onto base later).lastPlace = ⟨last.location, fault⟩) ∨
    (after.ahead ≠ some none ∧ ∃ failure, halt = .own failure ∧ failure.fault.isEnd = false ∧
      failure.Blames shown) := by
  cases justified with
  | item => exact absurd rfl (unmet _)
  | @ended fault before last isEnd =>
      obtain ⟨others, _, split⟩ := append_singleton_of_map ((List.append_nil _).symm.trans tokens)
      refine .inl ⟨rfl, others, last, fault, split, isEnd, fun base later => ?_⟩
      exact congrArg (SyntaxError.mk · fault) (Trail.lastPlace_onto rfl base later)
  | @parameters before last =>
      obtain ⟨others, _, split⟩ := append_singleton_of_map ((List.append_nil _).symm.trans tokens)
      exact .inl ⟨rfl, others, last, .expectedParameterList, split, rfl, fun _ _ => rfl⟩
  | @ahead failure taken token names =>
      obtain ⟨others, _, rfl⟩ := append_singleton_of_map tokens
      exact .inr ⟨nofun, failure, rfl, names.2.isEnd_eq_false, .last names⟩
  | @taken failure before token names =>
      obtain ⟨others, _, rfl⟩ := append_singleton_of_map ((List.append_nil _).symm.trans tokens)
      exact .inr ⟨nofun, failure, rfl, names.2.isEnd_eq_false, .last names⟩
  | role noRole =>
      obtain ⟨_, signAndFound, rfl⟩ :=
        append_singleton_of_map ((List.append_nil _).symm.trans tokens)
      obtain ⟨_, onlySign, rfl⟩ := append_singleton_of_map signAndFound
      obtain ⟨others, _, rfl⟩ := append_singleton_of_map onlySign
      refine .inr ⟨nofun, _, rfl, rfl, ?_⟩
      rw [List.append_assoc, List.append_assoc]
      exact .role rfl noRole rfl

/-! ### Fair readings -/

def Trail.Begun (trail : Trail) : Prop :=
  ∃ (before : List TokenItem) (last : Token), trail.taken = before ++ [.ok last]

theorem Trail.begun_take (trail : Trail) (token : Token) : (trail.take (.ok token)).Begun :=
  ⟨trail.taken, token, rfl⟩

theorem Trail.Begun.look {trail : Trail} (begun : trail.Begun) (answer : Option TokenItem) :
    (trail.look answer).Begun := begun

theorem Halt.Justified.ended_of {fault : Fault} {trail : Trail} (begun : trail.Begun)
    (seen : trail.ahead = some none) (isEnd : fault.isEnd = true) :
    (atLast fault).Justified trail := by
  obtain ⟨taken, ahead⟩ := trail
  obtain ⟨before, last, same⟩ := begun
  cases same
  cases seen
  exact .ended isEnd

theorem Halt.Justified.ahead_of {failure : SyntaxError} {trail : Trail} {token : Token}
    (seen : trail.ahead = some (some (.ok token))) (names : failure.Names token) :
    (own failure).Justified trail := by
  obtain ⟨taken, ahead⟩ := trail
  cases seen
  exact .ahead names

namespace Reading

variable {α β : Type} {reading : Reading α} {room : Nat} {trail after : Trail}
  {gives : α → Trail → Prop}

/-- However a reading goes on from a trail with at most `room` items left, it fails
only where its trail shows why, and answers with what meets a condition there. -/
def Fair : Reading α → Nat → Trail → (α → Trail → Prop) → Prop
  | done value, _, trail, gives => gives value trail
  | fail failure, _, trail, _ => (Halt.own failure).Justified trail
  | failAtLast fault, _, trail, _ => (Halt.atLast fault).Justified trail
  | look next, room, trail, gives =>
    ∀ answer : Option Token, trail.Allows (answer.map .ok) →
      (next answer).Fair room (trail.look (answer.map .ok)) gives
  | take next, room, trail, gives =>
    (trail.Allows none → (Halt.atLast .unexpectedEnd).Justified (trail.look none)) ∧
      ∀ token left, room = left + 1 → trail.Allows (some (.ok token)) →
        (next token).Fair left (trail.take (.ok token)) gives

/-- The trail shows why a fair reading failed. -/
theorem Fair.justified {halt : Halt} (fair : reading.Fair room trail gives)
    (explored : reading.Explores trail (.error halt) after)
    (within : after.shown.length ≤ trail.taken.length + room) : halt.Justified after := by
  generalize same : (Except.error halt : Except Halt α) = ending at explored
  induction explored generalizing room with
  | done => cases same
  | fail =>
      cases same
      exact fair
  | failAtLast =>
      cases same
      exact fair
  | lookToken allowed _ ih => exact ih (fair (some _) allowed) within same
  | lookEnd allowed _ ih => exact ih (fair none allowed) within same
  | lookError _ =>
      cases same
      exact .item
  | @takeToken next trail after ending token allowed following ih =>
      have grown : (trail.take (.ok token)).taken.length = trail.taken.length + 1 :=
        List.length_append
      have kept := following.shown.length_le
      have counted : (trail.take (.ok token)).taken.length ≤
          (trail.take (.ok token)).shown.length :=
        List.IsPrefix.length_le ⟨_, rfl⟩
      obtain ⟨left, rfl⟩ : ∃ left, room = left + 1 :=
        Nat.exists_eq_add_one_of_ne_zero (by omega)
      exact ih (fair.2 token left rfl allowed) (by omega) same
  | takeEnd allowed =>
      cases same
      exact fair.1 allowed
  | takeError _ =>
      cases same
      exact .item

/-! ### Steps -/

/-- Two readings in a row are fair if the first is, and the second wherever the first
may leave it. -/
theorem Fair.bind {following : α → Reading β} {whole : β → Trail → Prop}
    (first : reading.Fair room trail gives)
    (behind : ∀ {value : α} {left : Nat} {after : Trail}, gives value after → left ≤ room →
      (trail.Begun → after.Begun) → (following value).Fair left after whole) :
    (reading >>= following).Fair room trail whole := by
  change (reading.andThen following).Fair room trail whole
  induction reading generalizing room trail with
  | done value => exact behind first (Nat.le_refl room) id
  | fail failure => exact first
  | failAtLast fault => exact first
  | look next ih =>
      intro answer allowed
      exact ih answer (first answer allowed) behind
  | take next ih =>
      refine ⟨first.1, ?_⟩
      intro token left enough allowed
      apply ih token (first.2 token left enough allowed)
      intro value fewer after given less begun
      exact behind given (by omega) fun _ => begun (trail.begun_take token)

theorem Fair.peek {following : Option Token → Reading α}
    (behind : ∀ {answer : Option Token}, trail.Allows (answer.map .ok) →
      (following answer).Fair room (trail.look (answer.map .ok)) gives) :
    (Reading.peek >>= following).Fair room trail gives :=
  fun _ allowed => behind allowed

theorem Fair.skip {following : Unit → Reading α} {token : Token}
    (behind : ∀ {left : Nat}, room = left + 1 →
      (following ()).Fair left (trail.take (.ok token)) gives) :
    (Reading.skip >>= following).Fair room (trail.look (some (.ok token))) gives := by
  constructor
  · intro allowed
    rcases allowed with unseen | same
    · cases unseen
    · cases same
  · intro other left enough allowed
    rcases allowed with unseen | same
    · cases unseen
    · cases same
      exact behind enough

theorem fair_next (begun : trail.Begun) :
    next.Fair room trail fun token after => after = trail.take (.ok token) := by
  refine ⟨fun _ => .ended_of begun rfl rfl, ?_⟩
  intro token left _ _
  rfl

theorem fair_skip (begun : trail.Begun) : Reading.skip.Fair room trail fun _ _ => True := by
  refine ⟨fun _ => .ended_of begun rfl rfl, ?_⟩
  intros
  trivial

theorem names_unexpected (token : Token) :
    (⟨token.location, .unexpectedToken token.kind⟩ : SyntaxError).Names token :=
  ⟨rfl, rfl⟩

theorem fair_expect (begun : trail.Begun) {kind : Token.Kind} :
    (expect kind).Fair room trail fun _ _ => True := by
  apply (fair_next begun).bind
  intro token left after same _ _
  subst same
  split
  · trivial
  · exact .taken (names_unexpected token)

theorem fair_expectName (begun : trail.Begun) :
    expectName.Fair room trail fun answer after =>
      after = trail.take (.ok ⟨.name answer.1, answer.2⟩) := by
  apply (fair_next begun).bind
  intro token left after same _ _
  subst same
  obtain ⟨kind, place⟩ := token
  cases kind with
  | name name => rfl
  | _ => exact .taken (names_unexpected _)

end Reading

end Shading
