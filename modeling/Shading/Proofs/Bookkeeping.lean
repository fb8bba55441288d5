import Mathlib.Data.List.Induction
import Mathlib.Data.List.ReduceOption
import Shading.Proofs.Operations
import Shading.Proofs.Pending
import Shading.Text.Cursor

/-!
The books that cursors keep.

A lookahead may stand over a source that now and then has nothing to give. However it is asked,
what it gave out and the item on hold are what was pulled, and its count and its last item agree
with that. A text cursor stands at the place behind what it gave out. It has nothing on hold, and
yet it answers like a lookahead over its characters.
-/

namespace Shading

open Cursor

/-! ### Lookaheads over feeds -/

section Feeds

variable {α : Type}

theorem Feed.items_eq (feed : Feed α) :
    Source.items feed = (feed.answers.takeWhile Option.isSome).reduceOption := by
  obtain ⟨answers, pulls⟩ := feed
  induction answers generalizing pulls with
  | nil => rfl
  | cons answer later ih =>
      cases answer with
      | none => rfl
      | some item => exact congrArg (item :: ·) (ih (pulls + 1))

theorem Feed.items_filled (items : List α) (pulls : Nat) :
    Source.items (⟨items.map some, pulls⟩ : Feed α) = items := by
  induction items generalizing pulls with
  | nil => rfl
  | cons item later ih => exact congrArg (item :: ·) (ih (pulls + 1))

namespace Lookahead

theorem head_pending (lookahead : Lookahead (Feed α) α) :
    lookahead.peek.1 = lookahead.pending.head? ∧ lookahead.next.1 = lookahead.pending.head? := by
  obtain ⟨⟨answers, pulls⟩, held, taken, last⟩ := lookahead
  cases held with
  | some item => exact ⟨rfl, rfl⟩
  | none => rcases answers with _ | ⟨_ | item, later⟩ <;> exact ⟨rfl, rfl⟩

/-- Only where an item comes up it is known what comes up behind it: an empty answer may stand
in front of further items. -/
theorem pending_behind {lookahead : Lookahead (Feed α) α} {item : α} {others : List α}
    (ahead : lookahead.pending = item :: others) :
    lookahead.peek.2.pending = item :: others ∧ lookahead.next.2.pending = others := by
  obtain ⟨⟨answers, pulls⟩, held, taken, last⟩ := lookahead
  cases held with
  | some shown => exact ⟨ahead, (List.cons.inj ahead).2⟩
  | none =>
      rcases answers with _ | ⟨_ | shown, later⟩
      · cases ahead
      · cases ahead
      · exact ⟨ahead, (List.cons.inj ahead).2⟩

instance : Foreseen (Lookahead (Feed α) α) where
  upcoming := pending
  peek_fst lookahead := lookahead.head_pending.1
  peek_upcoming ahead := (pending_behind ahead).1
  next_fst lookahead := lookahead.head_pending.2
  next_upcoming ahead := (pending_behind ahead).2
  upcoming_length_le lookahead := by
    have answered := List.length_filterMap_le id
      (lookahead.source.answers.takeWhile Option.isSome)
    have fewer := (List.takeWhile_prefix Option.isSome (l := lookahead.source.answers)).length_le
    rw [pending, List.length_append, Feed.items_eq]
    exact Nat.add_le_add_left (Nat.le_trans answered fewer) _

/-- What a lookahead over a feed says of itself after it gave out these items: of the answers
that were pulled, the items were given out or are on hold, in their order. -/
structure Booked (answers : List (Option α)) (given : List α)
    (lookahead : Lookahead (Feed α) α) : Prop where
  ahead : lookahead.source.answers = answers.drop lookahead.source.pulls
  pulled : given ++ lookahead.held.toList = (answers.take lookahead.source.pulls).reduceOption
  taken : lookahead.taken = given.length
  last : lookahead.last = given.getLast?

theorem booked_ofAnswers (answers : List (Option α)) :
    Booked answers [] (ofSource (Feed.ofAnswers answers)) :=
  ⟨rfl, rfl, rfl, rfl⟩

variable {answers : List (Option α)}

theorem Booked.pull {given : List α} {lookahead : Lookahead (Feed α) α}
    (booked : Booked answers given lookahead) (free : lookahead.held = none) :
    let (answer, source) := Source.pull lookahead.source
    source.answers = answers.drop source.pulls ∧
      given ++ answer.toList = (answers.take source.pulls).reduceOption := by
  obtain ⟨ahead, pulled, _, _⟩ := booked
  rw [free, Option.toList_none, List.append_nil] at pulled
  constructor
  · change lookahead.source.answers.tail = _
    rw [ahead, List.tail_drop]
  · change given ++ (lookahead.source.answers.headD none).toList =
      (answers.take (lookahead.source.pulls + 1)).reduceOption
    rw [pulled, ahead, List.headD_eq_head?_getD, List.head?_drop, List.take_add_one,
      List.reduceOption_append]
    rcases answers[lookahead.source.pulls]? with _ | _ | item <;> rfl

theorem Booked.give {given : List α} {source : Feed α} {taken : Nat} {item : α}
    (ahead : source.answers = answers.drop source.pulls)
    (pulled : given ++ [item] = (answers.take source.pulls).reduceOption)
    (counted : taken = given.length) :
    Booked answers (given ++ [item]) ⟨source, none, taken + 1, some item⟩ where
  ahead := ahead
  pulled := by rw [← pulled]; exact List.append_nil _
  taken := by rw [counted, List.length_append]; rfl
  last := List.getLast?_concat.symm

theorem booked_invariant :
    Invariant fun recorded : Recorded (Lookahead (Feed α) α) α =>
      Booked answers recorded.given recorded.cursor where
  peek := by
    rintro ⟨⟨source, held, taken, last⟩, given⟩ booked
    cases held with
    | some item => exact booked
    | none =>
        obtain ⟨ahead, pulled⟩ := booked.pull rfl
        exact ⟨ahead, pulled, booked.taken, booked.last⟩
  next := by
    rintro ⟨⟨source, held, taken, last⟩, given⟩ booked
    cases held with
    | some item => exact Booked.give booked.ahead booked.pulled booked.taken
    | none =>
        have pulled := booked.pull rfl
        change Booked answers (given ++ (Lookahead.next ⟨source, none, taken, last⟩).1.toList)
          (Lookahead.next ⟨source, none, taken, last⟩).2
        unfold Lookahead.next
        dsimp only at pulled ⊢
        generalize Source.pull source = answered at pulled ⊢
        obtain ⟨_ | item, behind⟩ := answered
        · change Booked answers (given ++ []) ⟨behind, none, taken, last⟩
          rw [List.append_nil]
          exact ⟨pulled.1, pulled.2, booked.taken, booked.last⟩
        · exact Booked.give pulled.1 pulled.2 booked.taken

theorem Booked.split {items given : List α} {lookahead : Lookahead (Feed α) α}
    (booked : Booked (items.map some) given lookahead) : items = given ++ lookahead.pending := by
  obtain ⟨⟨later, pulls⟩, held, taken, last⟩ := lookahead
  obtain ⟨ahead, pulled, _, _⟩ := booked
  dsimp only at ahead pulled
  rw [← List.map_drop] at ahead
  rw [← List.map_take, List.reduceOption, List.filterMap_map] at pulled
  have filled : (items.take pulls).filterMap (id ∘ some) = items.take pulls := List.filterMap_some
  rw [pending, ahead, Feed.items_filled, ← List.append_assoc, pulled, filled,
    List.take_append_drop]

/-- How a lookahead over a feed does what is asked of it. What comes up is the item on hold and
the items up to the next empty answer. -/
structure Obeys (lookahead : Lookahead (Feed α) α) : Prop where
  upcoming : lookahead.pending =
    lookahead.held.toList ++ (lookahead.source.answers.takeWhile Option.isSome).reduceOption
  answer : ∀ operation : Operation α,
    (operation.on lookahead).1 = (operation.meaning lookahead.pending).1
  given : ∀ operation : Operation α,
    givenOut [operation] lookahead = (operation.meaning lookahead.pending).2
  /-- Looking pulls nothing where an item is on hold, and else it pulls once. -/
  pulls : (Cursor.peek lookahead).2.source.pulls =
    lookahead.source.pulls + if lookahead.held.isSome then 0 else 1
  longest : ∀ {τ : Type} (test : τ → α → Bool × τ) (state : τ),
    LongestRun test state lookahead.pending (givenOut [.skipWhileWith test state] lookahead)
  /-- The item behind a run that was skipped is on hold. -/
  held : ∀ {τ : Type} (test : τ → α → Bool × τ) (state : τ),
    (skipWhileWith test state lookahead).2.held =
      (lookahead.pending.drop (givenOut [.skipWhileWith test state] lookahead).length).head?
  heldBehind : ∀ test : α → Bool,
    (skipWhile test lookahead).held = (lookahead.pending.dropWhile test).head?

theorem held_of_skipWhileWith {τ : Type} (test : τ → α → Bool × τ) (state : τ)
    (lookahead : Lookahead (Feed α) α) :
    (skipWhileWith test state lookahead).2.held =
      (lookahead.pending.drop (acceptedRun test state lookahead.pending).2.length).head? := by
  obtain ⟨stopped, left, stops⟩ := skipWhileWith_stops test state lookahead
  have shown := Foreseen.peek_fst stopped
  rw [left] at shown
  rw [stops]
  exact stopped.peek_held.trans shown

theorem obeys (lookahead : Lookahead (Feed α) α) : lookahead.Obeys where
  upcoming := by rw [pending, Feed.items_eq]
  answer operation := operation.answer_eq lookahead
  given operation := givenOut_single operation lookahead
  pulls := by
    obtain ⟨source, held, taken, last⟩ := lookahead
    cases held <;> rfl
  longest test state := by
    rw [givenOut_single]
    exact acceptedRun_longest state lookahead.pending
  held test state := by
    rw [givenOut_single]
    exact held_of_skipWhileWith test state lookahead
  heldBehind test := by
    have split : (lookahead.pending.takeWhile test ++ lookahead.pending.dropWhile test).drop
        (lookahead.pending.takeWhile test).length = lookahead.pending.dropWhile test :=
      List.drop_left
    have held := held_of_skipWhileWith (fun (_ : Unit) item => (test item, ())) () lookahead
    rw [acceptedRun_stateless] at held
    rw [List.takeWhile_append_dropWhile] at split
    rw [← split]
    exact held

end Lookahead

end Feeds

/-! ### Text cursors -/

namespace TextCursor

instance : Foreseen TextCursor where
  upcoming := rest
  peek_fst _ := rfl
  peek_upcoming ahead := ahead
  next_fst cursor := by
    obtain ⟨_ | ⟨character, later⟩, location⟩ := cursor <;> rfl
  next_upcoming := by
    rintro ⟨characters, location⟩ character later ahead
    cases ahead
    rfl
  upcoming_length_le _ := Nat.le_refl _

/-- A text cursor stands behind the characters that it gave out. -/
structure Placed (characters given : List Char) (cursor : TextCursor) : Prop where
  split : characters = given ++ cursor.rest
  location : cursor.location = Location.origin.afterAll given

theorem placed_invariant (characters : List Char) :
    Invariant fun recorded : Recorded TextCursor Char =>
      Placed characters recorded.given recorded.cursor where
  peek placed := placed
  next := by
    rintro ⟨⟨_ | ⟨character, later⟩, location⟩, given⟩ ⟨split, placed⟩
    · change Placed characters (given ++ []) ⟨[], location⟩
      rw [List.append_nil]
      exact ⟨split, placed⟩
    · change Placed characters (given ++ [character]) ⟨later, location.after character⟩
      constructor
      · rw [List.append_assoc]
        exact split
      · rw [Location.afterAll, List.foldl_concat]
        exact congrArg (·.after character) placed

theorem placed_ofString (text : String) : Placed text.toList [] (ofString text) := ⟨rfl, rfl⟩

end TextCursor

section Texts

variable {text : String} {operations : List (Operation Char)}

def characterLookahead (text : String) : Lookahead (Feed Char) Char :=
  .ofSource (.ofAnswers (text.toList.map some))

theorem rest_eq_pending
    (same : givenOut operations (TextCursor.ofString text) =
      givenOut operations (characterLookahead text)) :
    (behind operations (TextCursor.ofString text)).rest =
      (behind operations (characterLookahead text)).pending := by
  have placed := (TextCursor.placed_invariant text.toList).behind_givenOut
    (TextCursor.placed_ofString text) operations
  have booked := Lookahead.booked_invariant.behind_givenOut
    (Lookahead.booked_ofAnswers (text.toList.map some)) operations
  have split := placed.split
  rw [same] at split
  exact List.append_cancel_left (split.symm.trans booked.split)

theorem givenOut_characterLookahead :
    givenOut operations (TextCursor.ofString text) =
      givenOut operations (characterLookahead text) := by
  induction operations using List.reverseRecOn with
  | nil => rfl
  | append_singleton before operation ih =>
      have ahead : Foreseen.upcoming (behind before (TextCursor.ofString text)) =
        Foreseen.upcoming (behind before (characterLookahead text)) := rest_eq_pending ih
      rw [givenOut_snoc, givenOut_snoc, givenOut_single, givenOut_single, ih, ahead]

/-- What comes up decides the answers, so a text cursor answers like a lookahead. -/
theorem answer_characterLookahead (operation : Operation Char) :
    (operation.on (behind operations (TextCursor.ofString text))).1 =
      (operation.on (behind operations (characterLookahead text))).1 := by
  have ahead : Foreseen.upcoming (behind operations (TextCursor.ofString text)) =
    Foreseen.upcoming (behind operations (characterLookahead text)) :=
      rest_eq_pending givenOut_characterLookahead
  rw [operation.answer_eq, operation.answer_eq, ahead]

end Texts

/-- Cursors lose, repeat and exchange nothing, and their books are right, whatever they are asked.

A lookahead has given out, or holds, the items among the answers it pulled, and the items that
come up next decide what it answers. A text cursor stands at the place behind the characters it
gave out, however often it was looked at. -/
theorem cursors_keep_books :
    (∀ {α : Type} (answers : List (Option α)) (operations : List (Operation α)),
      let begun : Lookahead (Feed α) α := .ofSource (.ofAnswers answers)
      (behind operations begun).Booked answers (givenOut operations begun) ∧
        (behind operations begun).Obeys) ∧
    ∀ (text : String) (operations : List (Operation Char)),
      let begun := TextCursor.ofString text
      (behind operations begun).Placed text.toList (givenOut operations begun) ∧
        givenOut operations begun = givenOut operations (characterLookahead text) ∧
        ∀ operation : Operation Char, (operation.on (behind operations begun)).1 =
          (operation.on (behind operations (characterLookahead text))).1 := by
  constructor
  · intro α answers operations
    exact ⟨Lookahead.booked_invariant.behind_givenOut
      (Lookahead.booked_ofAnswers answers) operations, Lookahead.obeys _⟩
  · intro text operations
    exact ⟨(TextCursor.placed_invariant text.toList).behind_givenOut
      (TextCursor.placed_ofString text) operations,
      givenOut_characterLookahead, answer_characterLookahead⟩

example :
    givenOut [.skipWhile fun _ => true, .next]
      (.ofSource (.ofAnswers [some 1, some 2, none, some 3]) : Lookahead (Feed Nat) Nat) =
        [1, 2, 3] := rfl

end Shading
