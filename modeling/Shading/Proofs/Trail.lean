import Shading.Proofs.Pending
import Shading.Reading

/-!
What a reading was shown before it ended.

A reading knows of its items only the answers to its requests, and a trail keeps
them. `Explores` says how a reading may go on from a trail, whatever the items
are. Carrying out a reading explores it, and what was explored is carried out
alike over all items that begin with what was shown; so nothing else decides how
a reading ends.
-/

namespace Shading

/-- The answers to the requests of a reading: the items it took, and what it saw
ahead of them, an item or the end, if it looked there. -/
structure Trail where
  taken : List TokenItem
  ahead : Option (Option TokenItem)

/-- Why a reading ended without an answer: it failed at a place of its own, or at
that of the last token, or it met an error among the items. -/
inductive Halt where
  | own (failure : SyntaxError)
  | atLast (fault : Fault)
  | item (failure : SyntaxError)

def Halt.failure (last : Location) : Halt → SyntaxError
  | own failure => failure
  | atLast fault => ⟨last, fault⟩
  | item failure => failure

namespace Trail

def start : Trail := ⟨[], none⟩

def shown (trail : Trail) : List TokenItem := trail.taken ++ trail.ahead.join.toList

/-- What is ahead was not seen yet, or it is this. -/
def Allows (trail : Trail) (answer : Option TokenItem) : Prop :=
  trail.ahead = none ∨ trail.ahead = some answer

def look (trail : Trail) (answer : Option TokenItem) : Trail := ⟨trail.taken, some answer⟩

def take (trail : Trail) (item : TokenItem) : Trail := ⟨trail.taken ++ [item], none⟩

def Fits (trail : Trail) (source : List TokenItem) : Prop :=
  trail.ahead = some none → source = []

def onto (trail : Trail) (base : Parser (List TokenItem)) (source : List TokenItem) :
    Parser (List TokenItem) :=
  ⟨source, trail.ahead.join, base.taken + trail.taken.length, trail.taken.getLast?.or base.last⟩

end Trail

/-- How a reading may end that goes on from a trail, and the trail it leaves. -/
inductive Reading.Explores {α : Type} : Reading α → Trail → Except Halt α → Trail → Prop where
  | done {value : α} {trail : Trail} : Explores (.done value) trail (.ok value) trail
  | fail {failure : SyntaxError} {trail : Trail} :
      Explores (.fail failure) trail (.error (.own failure)) trail
  | failAtLast {fault : Fault} {trail : Trail} :
      Explores (.failAtLast fault) trail (.error (.atLast fault)) trail
  | lookToken {next : Option Token → Reading α} {trail after : Trail} {ending : Except Halt α}
      {token : Token} (allowed : trail.Allows (some (.ok token)))
      (following : Explores (next (some token)) (trail.look (some (.ok token))) ending after) :
      Explores (.look next) trail ending after
  | lookEnd {next : Option Token → Reading α} {trail after : Trail} {ending : Except Halt α}
      (allowed : trail.Allows none)
      (following : Explores (next none) (trail.look none) ending after) :
      Explores (.look next) trail ending after
  | lookError {next : Option Token → Reading α} {trail : Trail} {failure : SyntaxError}
      (allowed : trail.Allows (some (.error failure))) :
      Explores (.look next) trail (.error (.item failure)) (trail.look (some (.error failure)))
  | takeToken {next : Token → Reading α} {trail after : Trail} {ending : Except Halt α}
      {token : Token} (allowed : trail.Allows (some (.ok token)))
      (following : Explores (next token) (trail.take (.ok token)) ending after) :
      Explores (.take next) trail ending after
  | takeEnd {next : Token → Reading α} {trail : Trail} (allowed : trail.Allows none) :
      Explores (.take next) trail (.error (.atLast .unexpectedEnd)) (trail.look none)
  | takeError {next : Token → Reading α} {trail : Trail} {failure : SyntaxError}
      (allowed : trail.Allows (some (.error failure))) :
      Explores (.take next) trail (.error (.item failure)) (trail.take (.error failure))

/-! ### Trails grow -/

namespace Trail

variable {trail : Trail} {answer : Option TokenItem} {item : TokenItem}
  {base : Parser (List TokenItem)} {source later : List TokenItem}

theorem shown_look : (trail.look answer).shown = trail.taken ++ answer.toList := rfl

theorem shown_take : (trail.take item).shown = trail.taken ++ [item] := List.append_nil _

theorem fits_look : (trail.look (some item)).Fits later := by
  intro ended
  cases ended

theorem fits_take : (trail.take item).Fits later := by
  intro ended
  cases ended

theorem Allows.unended (allowed : trail.Allows (some item)) : trail.ahead ≠ some none := by
  intro ended
  rcases allowed with unseen | same
  · rw [ended] at unseen
    cases unseen
  · rw [ended] at same
    cases same

theorem Allows.look_ended (allowed : trail.Allows answer) (ended : trail.ahead = some none) :
    trail.look answer = trail := by
  cases trail with
  | mk taken ahead =>
      rcases allowed with unseen | same
      · cases ended
        cases unseen
      · cases same
        rfl

theorem Allows.shown_look (allowed : trail.Allows answer) :
    trail.shown <+: (trail.look answer).shown := by
  cases trail with
  | mk taken ahead =>
      rcases allowed with unseen | same
      · cases unseen
        exact ⟨answer.toList, by simp [shown, look]⟩
      · cases same
        exact List.prefix_rfl

theorem Allows.shown_take (allowed : trail.Allows (some item)) :
    trail.shown <+: (trail.take item).shown := by
  cases trail with
  | mk taken ahead =>
      rcases allowed with unseen | same
      · cases unseen
        exact ⟨[item], by simp [shown, take]⟩
      · cases same
        exact ⟨[], by simp [shown, take]⟩

theorem peek_onto (trail : Trail) (base : Parser (List TokenItem)) (fits : trail.Fits source) :
    ∃ answer later, trail.Allows answer ∧ (trail.look answer).Fits later ∧
      trail.shown ++ source = (trail.look answer).shown ++ later ∧
        (trail.onto base source).peek = (answer, (trail.look answer).onto base later) := by
  cases trail with
  | mk taken ahead =>
      cases ahead with
      | none =>
          cases source with
          | nil => exact ⟨none, [], .inl rfl, fun _ => rfl, rfl, rfl⟩
          | cons item later =>
              exact ⟨some item, later, .inl rfl, fits_look, by simp [shown, look], rfl⟩
      | some answer =>
          cases answer with
          | none =>
              cases fits rfl
              exact ⟨none, [], .inr rfl, fun _ => rfl, rfl, rfl⟩
          | some item => exact ⟨some item, source, .inr rfl, fits_look, rfl, rfl⟩

theorem next_onto (trail : Trail) (base : Parser (List TokenItem)) (fits : trail.Fits source) :
    (∃ item later, trail.Allows (some item) ∧
      trail.shown ++ source = (trail.take item).shown ++ later ∧
        (trail.onto base source).next = (some item, (trail.take item).onto base later)) ∨
    (trail.Allows none ∧ trail.shown ++ source = (trail.look none).shown ∧
      (trail.onto base source).next = (none, (trail.look none).onto base [])) := by
  cases trail with
  | mk taken ahead =>
      cases ahead with
      | none =>
          cases source with
          | nil => exact .inr ⟨.inl rfl, by simp [shown, look], rfl⟩
          | cons item later =>
              refine .inl ⟨item, later, .inl rfl, by simp [shown, take], ?_⟩
              simp [onto, take, Lookahead.next, Source.pull, Nat.add_assoc]
      | some answer =>
          cases answer with
          | none =>
              cases fits rfl
              exact .inr ⟨.inr rfl, by simp [shown, look], rfl⟩
          | some item =>
              refine .inl ⟨item, source, .inr rfl, by simp [shown, take], ?_⟩
              simp [onto, take, Lookahead.next, Nat.add_assoc]

theorem Allows.peek (allowed : trail.Allows answer) (base : Parser (List TokenItem))
    (fits : (trail.look answer).Fits later)
    (kept : trail.shown ++ source = (trail.look answer).shown ++ later) :
    (trail.onto base source).peek = (answer, (trail.look answer).onto base later) := by
  cases trail with
  | mk taken ahead =>
      rcases allowed with unseen | same
      · cases unseen
        cases answer with
        | none =>
            cases fits rfl
            have ended : source = [] := by simpa [shown, look] using kept
            rw [ended]
            rfl
        | some item =>
            have begins : source = item :: later := by simpa [shown, look] using kept
            rw [begins]
            rfl
      · cases same
        have behind : source = later := List.append_cancel_left kept
        rw [behind]
        cases answer with
        | none =>
            cases fits rfl
            rfl
        | some item => rfl

theorem Allows.next (allowed : trail.Allows (some item)) (base : Parser (List TokenItem))
    (kept : trail.shown ++ source = (trail.take item).shown ++ later) :
    (trail.onto base source).next = (some item, (trail.take item).onto base later) := by
  cases trail with
  | mk taken ahead =>
      rcases allowed with unseen | same
      · cases unseen
        have begins : source = item :: later := by simpa [shown, take] using kept
        rw [begins]
        simp [onto, take, Lookahead.next, Source.pull, Nat.add_assoc]
      · cases same
        have behind : source = later := by simpa [shown, take] using kept
        rw [behind]
        simp [onto, take, Lookahead.next, Nat.add_assoc]

theorem Allows.next_none (allowed : trail.Allows none) (base : Parser (List TokenItem))
    (kept : trail.shown ++ source = (trail.look none).shown) :
    (trail.onto base source).next = (none, (trail.look none).onto base []) := by
  cases trail with
  | mk taken ahead =>
      rcases allowed with unseen | same
      · cases unseen
        have ended : source = [] := by simpa [shown, look] using kept
        rw [ended]
        rfl
      · cases same
        have ended : source = [] := by simpa [shown, look] using kept
        rw [ended]
        rfl

/-! ### Trails of tokens -/

def OnlyTokens (trail : Trail) : Prop :=
  ∃ tokens : List Token, trail.shown = tokens.map .ok

theorem OnlyTokens.taken (only : trail.OnlyTokens) :
    ∃ tokens : List Token, trail.taken = tokens.map .ok := by
  obtain ⟨shown, same⟩ := only
  obtain ⟨taken, _, _, kept, _⟩ := List.map_eq_append_iff.mp same.symm
  exact ⟨taken, kept.symm⟩

theorem OnlyTokens.take_token (only : trail.OnlyTokens) (token : Token) :
    (trail.take (.ok token)).OnlyTokens := by
  obtain ⟨tokens, same⟩ := only.taken
  refine ⟨tokens ++ [token], ?_⟩
  rw [shown_take, same, List.map_append, List.map_singleton]

theorem OnlyTokens.look_token (only : trail.OnlyTokens) (token : Token) :
    (trail.look (some (.ok token))).OnlyTokens := by
  obtain ⟨tokens, same⟩ := only.taken
  refine ⟨tokens ++ [token], ?_⟩
  rw [shown_look, same, List.map_append, List.map_singleton]
  rfl

theorem OnlyTokens.look_none (only : trail.OnlyTokens) : (trail.look none).OnlyTokens := by
  obtain ⟨tokens, same⟩ := only.taken
  refine ⟨tokens, ?_⟩
  rw [shown_look, same, Option.toList_none, List.append_nil]

end Trail

namespace Reading

variable {α β : Type} {reading : Reading α} {trail after : Trail} {ending : Except Halt α}

theorem Explores.shown (explored : reading.Explores trail ending after) :
    trail.shown <+: after.shown := by
  induction explored with
  | done => exact List.prefix_rfl
  | fail => exact List.prefix_rfl
  | failAtLast => exact List.prefix_rfl
  | lookToken allowed _ ih => exact allowed.shown_look.trans ih
  | lookEnd allowed _ ih => exact allowed.shown_look.trans ih
  | lookError allowed => exact allowed.shown_look
  | takeToken allowed _ ih => exact allowed.shown_take.trans ih
  | takeEnd allowed => exact allowed.shown_look
  | takeError allowed => exact allowed.shown_take

theorem Explores.ended (explored : reading.Explores trail ending after)
    (ended : trail.ahead = some none) : after = trail := by
  induction explored with
  | done => rfl
  | fail => rfl
  | failAtLast => rfl
  | lookToken allowed _ _ => exact absurd ended allowed.unended
  | lookEnd allowed _ ih =>
      have same := allowed.look_ended ended
      exact (ih (by rw [same]; exact ended)).trans same
  | lookError allowed => exact absurd ended allowed.unended
  | takeToken allowed _ _ => exact absurd ended allowed.unended
  | takeEnd allowed => exact allowed.look_ended ended
  | takeError allowed => exact absurd ended allowed.unended

theorem Explores.item_shown {failure : SyntaxError}
    (explored : reading.Explores trail (.error (.item failure)) after) :
    .error failure ∈ after.shown := by
  generalize ended : (Except.error (.item failure) : Except Halt α) = ending at explored
  induction explored with
  | done => cases ended
  | fail => cases ended
  | failAtLast => cases ended
  | lookToken _ _ ih => exact ih ended
  | lookEnd _ _ ih => exact ih ended
  | lookError _ =>
      cases ended
      simp [Trail.shown, Trail.look]
  | takeToken _ _ ih => exact ih ended
  | takeEnd _ => cases ended
  | takeError _ =>
      cases ended
      simp [Trail.shown, Trail.take]

theorem Explores.tokens_shown (explored : reading.Explores trail ending after)
    (only : trail.OnlyTokens) (unmet : ∀ failure, ending ≠ .error (.item failure)) :
    after.OnlyTokens := by
  induction explored with
  | done => exact only
  | fail => exact only
  | failAtLast => exact only
  | lookToken _ _ ih => exact ih (only.look_token _) unmet
  | lookEnd _ _ ih => exact ih only.look_none unmet
  | lookError _ => exact absurd rfl (unmet _)
  | takeToken _ _ ih => exact ih (only.take_token _) unmet
  | takeEnd _ => exact only.look_none
  | takeError _ => exact absurd rfl (unmet _)

/-! ### Carrying out and exploring agree -/

/-- Carrying out a reading explores it. -/
theorem run_explores (reading : Reading α) (trail : Trail) (base : Parser (List TokenItem))
    {source : List TokenItem} (fits : trail.Fits source) :
    ∃ ending after later, reading.Explores trail ending after ∧ after.Fits later ∧
      trail.shown ++ source = after.shown ++ later ∧
        reading.run (trail.onto base source) =
          (ending.mapError (Halt.failure (after.onto base later).lastPlace),
            after.onto base later) := by
  induction reading generalizing trail source with
  | done value => exact ⟨_, trail, source, .done, fits, rfl, rfl⟩
  | fail failure => exact ⟨_, trail, source, .fail, fits, rfl, rfl⟩
  | failAtLast fault => exact ⟨_, trail, source, .failAtLast, fits, rfl, rfl⟩
  | look next ih =>
      obtain ⟨answer, later, allowed, fitsLater, kept, peeked⟩ := trail.peek_onto base fits
      rw [run, peeked]
      rcases answer with _ | ⟨failure | token⟩
      · obtain ⟨ending, after, rest, explored, fitsRest, keptRest, ran⟩ :=
          ih none (trail.look none) fitsLater
        exact ⟨ending, after, rest, .lookEnd allowed explored, fitsRest, kept.trans keptRest, ran⟩
      · exact ⟨_, _, later, .lookError allowed, fitsLater, kept, rfl⟩
      · obtain ⟨ending, after, rest, explored, fitsRest, keptRest, ran⟩ :=
          ih (some token) (trail.look (some (.ok token))) fitsLater
        exact ⟨ending, after, rest, .lookToken allowed explored, fitsRest, kept.trans keptRest, ran⟩
  | take next ih =>
      rcases trail.next_onto base fits with
        ⟨item, later, allowed, kept, taken⟩ | ⟨allowed, kept, taken⟩
      · rw [run, taken]
        rcases item with failure | token
        · exact ⟨_, _, later, .takeError allowed, Trail.fits_take, kept, rfl⟩
        · obtain ⟨ending, after, rest, explored, fitsRest, keptRest, ran⟩ :=
            ih token (trail.take (.ok token)) Trail.fits_take
          exact ⟨ending, after, rest, .takeToken allowed explored, fitsRest, kept.trans keptRest,
            ran⟩
      · rw [run, taken]
        exact ⟨_, _, [], .takeEnd allowed, fun _ => rfl, by rw [kept, List.append_nil], rfl⟩

/-- What was explored is carried out over all items that begin with what was shown. -/
theorem Explores.run (explored : reading.Explores trail ending after)
    (base : Parser (List TokenItem)) {source later : List TokenItem} (fits : after.Fits later)
    (kept : trail.shown ++ source = after.shown ++ later) :
    reading.run (trail.onto base source) =
      (ending.mapError (Halt.failure (after.onto base later).lastPlace),
        after.onto base later) := by
  induction explored generalizing source with
  | done =>
      rw [List.append_cancel_left kept]
      rfl
  | fail =>
      rw [List.append_cancel_left kept]
      rfl
  | failAtLast =>
      rw [List.append_cancel_left kept]
      rfl
  | lookToken allowed following ih =>
      obtain ⟨more, shown⟩ := following.shown
      rw [← shown, List.append_assoc] at kept
      rw [Reading.run, allowed.peek base Trail.fits_look kept]
      exact ih fits (by rw [← List.append_assoc, shown])
  | @lookEnd next trail after ending allowed following ih =>
      have stopped := following.ended rfl
      cases stopped
      cases fits rfl
      rw [Reading.run, allowed.peek base (fun _ => rfl) kept]
      exact ih (fun _ => rfl) rfl
  | lookError allowed =>
      rw [Reading.run, allowed.peek base Trail.fits_look kept]
      rfl
  | takeToken allowed following ih =>
      obtain ⟨more, shown⟩ := following.shown
      rw [← shown, List.append_assoc] at kept
      rw [Reading.run, allowed.next base kept]
      exact ih fits (by rw [← List.append_assoc, shown])
  | takeEnd allowed =>
      cases fits rfl
      rw [List.append_nil] at kept
      rw [Reading.run, allowed.next_none base kept]
      rfl
  | takeError allowed =>
      rw [Reading.run, allowed.next base kept]
      rfl

theorem run_listed {σ : Type} [Source σ TokenItem] [LawfulSource σ] (reading : Reading α)
    (parser : Parser σ) :
    reading.run (Lookahead.listed parser) =
      ((reading.run parser).1, Lookahead.listed (reading.run parser).2) := by
  induction reading generalizing parser with
  | done value => rfl
  | fail failure => rfl
  | failAtLast fault => rfl
  | look next ih =>
      rw [run, run, parser.peek_listed]
      rcases parser.peek with ⟨_ | ⟨failure | token⟩, behind⟩
      · exact ih none behind
      · rfl
      · exact ih (some token) behind
  | take next ih =>
      rw [run, run, parser.next_listed]
      rcases parser.next with ⟨_ | ⟨failure | token⟩, behind⟩
      · rfl
      · rfl
      · exact ih token behind

end Reading

end Shading
