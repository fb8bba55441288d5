import Shading.Cursor

/-!
What is asked of a cursor, and what it gives out.

Whatever is asked of a cursor is made of looking and taking. So what these two keep, every
operation keeps, and a cursor that writes down what is taken from it writes down what is skipped
as well. Where the items that come up are known, they alone decide what an operation answers and
gives out; skipping gives out the longest run that its test accepts.
-/

namespace Shading.Cursor

/-! ### Runs that a test accepts -/

section Runs

variable {τ α : Type} {test : τ → α → Bool × τ}

def AcceptsAll (test : τ → α → Bool × τ) : τ → List α → Prop
  | _, [] => True
  | state, item :: others =>
    (test state item).1 = true ∧ AcceptsAll test (test state item).2 others

/-- A run in front of these items that the test accepts, and no longer one is accepted. -/
structure LongestRun (test : τ → α → Bool × τ) (state : τ) (items run : List α) : Prop where
  front : run <+: items
  accepted : AcceptsAll test state run
  longest : ∀ {other : List α}, other <+: items → AcceptsAll test state other → other <+: run

/-- The state that the last test gives back, and the items that are accepted before. -/
def acceptedRun (test : τ → α → Bool × τ) : τ → List α → τ × List α
  | state, [] => (state, [])
  | state, item :: others =>
    match test state item with
    | (false, next) => (next, [])
    | (true, next) =>
      let (last, run) := acceptedRun test next others
      (last, item :: run)

theorem acceptedRun_longest (state : τ) (items : List α) :
    LongestRun test state items (acceptedRun test state items).2 := by
  induction items generalizing state with
  | nil => exact ⟨List.prefix_rfl, trivial, fun front _ => front⟩
  | cons item others ih =>
      unfold acceptedRun
      rcases decided : test state item with ⟨accepts, next⟩
      cases accepts with
      | false =>
          refine ⟨List.nil_prefix, trivial, fun {other} front accepted => ?_⟩
          cases other with
          | nil => exact List.prefix_rfl
          | cons first rest =>
              obtain ⟨rfl, _⟩ := List.cons_prefix_cons.mp front
              have absurdity := accepted.1
              rw [decided] at absurdity
              cases absurdity
      | true =>
          obtain ⟨front, accepted, longest⟩ := ih next
          refine ⟨List.cons_prefix_cons.mpr ⟨rfl, front⟩, ?_, fun {other} begins accepted => ?_⟩
          · rw [AcceptsAll, decided]
            exact ⟨rfl, accepted⟩
          · cases other with
            | nil => exact List.nil_prefix
            | cons first rest =>
                obtain ⟨rfl, behind⟩ := List.cons_prefix_cons.mp begins
                rw [AcceptsAll, decided] at accepted
                exact List.cons_prefix_cons.mpr ⟨rfl, longest behind accepted.2⟩

theorem acceptedRun_stateless (test : α → Bool) (items : List α) :
    acceptedRun (fun (_ : Unit) item => (test item, ())) () items =
      ((), items.takeWhile test) := by
  induction items with
  | nil => rfl
  | cons item others ih =>
      rw [acceptedRun, List.takeWhile_cons]
      cases test item with
      | false => rfl
      | true =>
          dsimp only
          rw [ih]
          rfl

end Runs

/-! ### Operations -/

/-- What can be asked of a cursor, with any tests, states and uses. -/
inductive Operation (α : Type) : Type 1 where
  | peek
  | next
  | skipOne
  | nextThen {β : Type} (use : Bool → Option α → β)
  | skipWhile (test : α → Bool)
  | skipWhileWith {τ : Type} (test : τ → α → Bool × τ) (state : τ)

namespace Operation

variable {α : Type}

def Answer : Operation α → Type
  | peek => Option α
  | next => Option α
  | skipOne => Bool
  | @nextThen _ β _ => β
  | skipWhile _ => Unit
  | @skipWhileWith _ τ _ _ => τ

def on {κ : Type} [Cursor κ α] : (operation : Operation α) → κ → operation.Answer × κ
  | peek, cursor => Cursor.peek cursor
  | next, cursor => Cursor.next cursor
  | skipOne, cursor => Cursor.skipOne cursor
  | nextThen use, cursor => Cursor.nextThen cursor use
  | skipWhile test, cursor => ((), Cursor.skipWhile test cursor)
  | skipWhileWith test state, cursor => Cursor.skipWhileWith test state cursor

/-- What an operation answers and gives out in front of these items. -/
def meaning : (operation : Operation α) → List α → operation.Answer × List α
  | peek, items => (items.head?, [])
  | next, items => (items.head?, items.head?.toList)
  | skipOne, items => (items.head?.isSome, items.head?.toList)
  | nextThen use, items => (use items.head?.isSome items.head?, items.head?.toList)
  | skipWhile test, items => ((), items.takeWhile test)
  | skipWhileWith test state, items => acceptedRun test state items

end Operation

variable {κ α : Type} [Cursor κ α]

def behind (operations : List (Operation α)) (cursor : κ) : κ :=
  operations.foldl (fun cursor operation => (operation.on cursor).2) cursor

theorem behind_snoc (operations : List (Operation α)) (operation : Operation α) (cursor : κ) :
    behind (operations ++ [operation]) cursor = (operation.on (behind operations cursor)).2 := by
  unfold behind
  rw [List.foldl_append]
  rfl

/-! ### What operations keep -/

structure Invariant (holds : κ → Prop) : Prop where
  peek : ∀ {cursor : κ}, holds cursor → holds (Cursor.peek cursor).2
  next : ∀ {cursor : κ}, holds cursor → holds (Cursor.next cursor).2

namespace Invariant

variable {holds : κ → Prop} (kept : Invariant holds) {cursor : κ}

include kept

theorem skipWhileWithin {τ : Type} {test : τ → α → Bool × τ} {limit : Nat} {state : τ}
    (begun : holds cursor) : holds (skipWhileWithin test limit state cursor).2 := by
  induction limit generalizing cursor state with
  | zero => exact begun
  | succ limit ih =>
      have looked := kept.peek begun
      unfold Cursor.skipWhileWithin
      generalize Cursor.peek cursor = answered at looked
      obtain ⟨_ | item, ahead⟩ := answered
      · exact looked
      · dsimp only
        generalize test state item = decided
        obtain ⟨_ | _, following⟩ := decided
        · exact looked
        · exact ih (kept.next looked)

theorem operation (operation : Operation α) (begun : holds cursor) :
    holds (operation.on cursor).2 := by
  cases operation with
  | peek => exact kept.peek begun
  | next => exact kept.next begun
  | skipOne => exact kept.next begun
  | nextThen use => exact kept.next begun
  | skipWhile test => exact kept.skipWhileWithin begun
  | skipWhileWith test state => exact kept.skipWhileWithin begun

theorem behind (operations : List (Operation α)) (begun : holds cursor) :
    holds (behind operations cursor) := by
  induction operations generalizing cursor with
  | nil => exact begun
  | cons first others ih => exact ih (kept.operation first begun)

end Invariant

/-! ### Writing down what is given out -/

/-- A cursor, and all items that were taken from it. -/
structure Recorded (κ α : Type) where
  cursor : κ
  given : List α

instance : Cursor (Recorded κ α) α where
  peek recorded :=
    let (item, cursor) := peek recorded.cursor
    (item, { recorded with cursor := cursor })
  next recorded :=
    let (item, cursor) := next recorded.cursor
    (item, ⟨cursor, recorded.given ++ item.toList⟩)
  remaining recorded := remaining recorded.cursor

def givenOut (operations : List (Operation α)) (cursor : κ) : List α :=
  (behind operations (⟨cursor, []⟩ : Recorded κ α)).given

theorem peek_recorded (cursor : κ) (given : List α) :
    peek (⟨cursor, given⟩ : Recorded κ α) = ((peek cursor).1, ⟨(peek cursor).2, given⟩) := rfl

theorem next_recorded (cursor : κ) (given : List α) :
    next (⟨cursor, given⟩ : Recorded κ α) =
      ((next cursor).1, ⟨(next cursor).2, given ++ (next cursor).1.toList⟩) := rfl

theorem skipWhileWithin_recorded {τ : Type} (test : τ → α → Bool × τ) (limit : Nat) (state : τ)
    (recorded : Recorded κ α) :
    skipWhileWithin test limit state recorded.cursor =
      ((skipWhileWithin test limit state recorded).1,
        (skipWhileWithin test limit state recorded).2.cursor) := by
  induction limit generalizing state recorded with
  | zero => rfl
  | succ limit ih =>
      obtain ⟨cursor, given⟩ := recorded
      unfold skipWhileWithin
      rw [peek_recorded]
      generalize peek cursor = answered
      obtain ⟨_ | item, ahead⟩ := answered
      · rfl
      · dsimp only
        generalize test state item = decided
        obtain ⟨_ | _, following⟩ := decided
        · rfl
        · exact ih following (skipOne (⟨ahead, given⟩ : Recorded κ α)).2

theorem Operation.on_recorded (operation : Operation α) (recorded : Recorded κ α) :
    operation.on recorded.cursor =
      ((operation.on recorded).1, (operation.on recorded).2.cursor) := by
  cases operation with
  | peek => rfl
  | next => rfl
  | skipOne => rfl
  | nextThen use => rfl
  | skipWhile test => exact Prod.ext rfl (congrArg Prod.snd (skipWhileWithin_recorded ..))
  | skipWhileWith test state => exact skipWhileWithin_recorded ..

theorem behind_recorded (operations : List (Operation α)) (recorded : Recorded κ α) :
    (behind operations recorded).cursor = behind operations recorded.cursor := by
  induction operations generalizing recorded with
  | nil => rfl
  | cons first others ih =>
      have forgotten : (first.on recorded).2.cursor = (first.on recorded.cursor).2 := by
        rw [first.on_recorded recorded]
      exact (ih (first.on recorded).2).trans (congrArg (behind others) forgotten)

theorem Invariant.behind_givenOut {holds : List α → κ → Prop} {cursor : κ}
    (kept : Invariant fun recorded : Recorded κ α => holds recorded.given recorded.cursor)
    (begun : holds [] cursor) (operations : List (Operation α)) :
    holds (givenOut operations cursor) (Cursor.behind operations cursor) := by
  have start : (fun recorded : Recorded κ α => holds recorded.given recorded.cursor)
    ⟨cursor, []⟩ := begun
  have reached := kept.behind operations start
  rw [behind_recorded] at reached
  exact reached

/-! ### Cursors whose next items are known -/

/-- A cursor that shows and gives out known items, up to where it first has none. -/
class Foreseen (κ : Type) {α : outParam Type} [Cursor κ α] where
  upcoming : κ → List α
  peek_fst : ∀ cursor, (peek cursor).1 = (upcoming cursor).head?
  peek_upcoming : ∀ {cursor item others}, upcoming cursor = item :: others →
    upcoming (peek cursor).2 = item :: others
  next_fst : ∀ cursor, (next cursor).1 = (upcoming cursor).head?
  next_upcoming : ∀ {cursor item others}, upcoming cursor = item :: others →
    upcoming (next cursor).2 = others
  upcoming_length_le : ∀ cursor, (upcoming cursor).length ≤ remaining cursor

open Foreseen

variable [Foreseen κ] {τ : Type} {test : τ → α → Bool × τ} {limit : Nat} {cursor : κ}

theorem peek_eq {items : List α} (ahead : upcoming cursor = items) :
    peek cursor = (items.head?, (peek cursor).2) :=
  Prod.ext (ahead ▸ peek_fst cursor) rfl

theorem next_eq {items : List α} (ahead : upcoming cursor = items) :
    next cursor = (items.head?, (next cursor).2) :=
  Prod.ext (ahead ▸ next_fst cursor) rfl

theorem skipWhileWithin_foreseen {items : List α} (state : τ) (given : List α)
    (ahead : upcoming cursor = items) (enough : items.length < limit) :
    ∃ stopped : κ, upcoming stopped = items.drop (acceptedRun test state items).2.length ∧
      skipWhileWithin test limit state (⟨cursor, given⟩ : Recorded κ α) =
        ((acceptedRun test state items).1,
          ⟨(peek stopped).2, given ++ (acceptedRun test state items).2⟩) := by
  induction limit generalizing state cursor given items with
  | zero => omega
  | succ limit ih =>
      rw [skipWhileWithin, peek_recorded, peek_eq ahead]
      cases items with
      | nil => exact ⟨cursor, ahead, by rw [acceptedRun, List.append_nil]; rfl⟩
      | cons item others =>
          rw [acceptedRun, List.head?_cons]
          dsimp only
          rcases test state item with ⟨_ | _, following⟩
          · exact ⟨cursor, ahead, by rw [List.append_nil]⟩
          · -- The item that was looked at is taken, and the rest is skipped behind it.
            have shown := peek_upcoming ahead
            obtain ⟨stopped, left, skipped⟩ :=
              ih following (given ++ [item]) (next_upcoming shown) (Nat.lt_of_succ_lt_succ enough)
            refine ⟨stopped, left, ?_⟩
            have passed : (skipOne (⟨(peek cursor).2, given⟩ : Recorded κ α)).2 =
                ⟨(next (peek cursor).2).2, given ++ [item]⟩ := by
              rw [skipOne, next_recorded, next_eq shown]
              rfl
            rw [passed]
            dsimp only
            rw [skipped, List.append_assoc]
            rfl

theorem skipWhileWith_foreseen (test : τ → α → Bool × τ) (state : τ) (cursor : κ)
    (given : List α) :
    ∃ stopped : κ,
      upcoming stopped =
        (upcoming cursor).drop (acceptedRun test state (upcoming cursor)).2.length ∧
      skipWhileWith test state (⟨cursor, given⟩ : Recorded κ α) =
        ((acceptedRun test state (upcoming cursor)).1,
          ⟨(peek stopped).2, given ++ (acceptedRun test state (upcoming cursor)).2⟩) :=
  skipWhileWithin_foreseen state given rfl (Nat.lt_succ_of_le (upcoming_length_le cursor))

theorem skipWhileWith_stops (test : τ → α → Bool × τ) (state : τ) (cursor : κ) :
    ∃ stopped : κ,
      upcoming stopped =
        (upcoming cursor).drop (acceptedRun test state (upcoming cursor)).2.length ∧
      (skipWhileWith test state cursor).2 = (peek stopped).2 := by
  obtain ⟨stopped, left, skipped⟩ := skipWhileWith_foreseen test state cursor []
  have same := skipWhileWithin_recorded test (remaining cursor + 1) state ⟨cursor, []⟩
  refine ⟨stopped, left, ?_⟩
  rw [skipWhileWith, same]
  exact congrArg (·.2.cursor) skipped

/-- The items that come up decide what an operation answers and gives out. -/
theorem Operation.on_foreseen (operation : Operation α) (cursor : κ) (given : List α) :
    (operation.on (⟨cursor, given⟩ : Recorded κ α)).1 =
        (operation.meaning (upcoming cursor)).1 ∧
      (operation.on (⟨cursor, given⟩ : Recorded κ α)).2.given =
        given ++ (operation.meaning (upcoming cursor)).2 := by
  have taken : given ++ (Cursor.next cursor).1.toList =
      given ++ (upcoming cursor).head?.toList := by
    rw [next_fst]
  cases operation with
  | peek => exact ⟨peek_fst cursor, (List.append_nil given).symm⟩
  | next => exact ⟨next_fst cursor, taken⟩
  | skipOne => exact ⟨congrArg Option.isSome (next_fst cursor), taken⟩
  | nextThen use =>
      have used : (Cursor.nextThen (⟨cursor, given⟩ : Recorded κ α) use).1 =
          use (upcoming cursor).head?.isSome (upcoming cursor).head? := by rw [← next_fst]; rfl
      exact ⟨used, taken⟩
  | skipWhile test =>
      obtain ⟨stopped, _, skipped⟩ :=
        skipWhileWith_foreseen (fun (_ : Unit) item => (test item, ())) () cursor given
      rw [acceptedRun_stateless] at skipped
      exact ⟨rfl, congrArg (·.2.given) skipped⟩
  | skipWhileWith test state =>
      obtain ⟨stopped, _, skipped⟩ := skipWhileWith_foreseen test state cursor given
      exact ⟨congrArg (·.1) skipped, congrArg (·.2.given) skipped⟩

theorem Operation.answer_eq (operation : Operation α) (cursor : κ) :
    (operation.on cursor).1 = (operation.meaning (upcoming cursor)).1 := by
  rw [operation.on_recorded ⟨cursor, []⟩]
  exact (operation.on_foreseen cursor []).1

theorem givenOut_single (operation : Operation α) (cursor : κ) :
    givenOut [operation] cursor = (operation.meaning (upcoming cursor)).2 :=
  (operation.on_foreseen cursor []).2

theorem givenOut_snoc (operations : List (Operation α)) (operation : Operation α) (cursor : κ) :
    givenOut (operations ++ [operation]) cursor =
      givenOut operations cursor ++ givenOut [operation] (behind operations cursor) := by
  have left := behind_recorded operations (⟨cursor, []⟩ : Recorded κ α)
  have given := (operation.on_foreseen (behind operations cursor) (givenOut operations cursor)).2
  rw [givenOut_single, ← given, givenOut, behind_snoc, givenOut, ← left]

end Shading.Cursor
