import Shading.Proofs.Grammar.Outcome

/-!
A parser that is asked again and again.

Between two requests a parser keeps an item on hold, the item it gave out last and a
count, and after an error it may stand in the middle of a construct. None of it shows
in what it answers next: it answers as a new parser that is given the items still to
come. What could show is the item given out last, as the place of an error; but an
error stands there only if its own request has taken a token before.
-/

namespace Shading

open Grammar

/-! ### Requests -/

/-- What a parser can be asked for: the next expression under a bound, or the whole
rest as a program. -/
inductive Request where
  | expression (bound : Precedence)
  | program
deriving DecidableEq, Repr

inductive Answer where
  | expression (found : Except SyntaxError (Option Expression))
  | program (outcome : Except SyntaxError Program)

namespace Parser

variable {σ : Type} [Source σ TokenItem]

def answer (parser : Parser σ) : Request → Answer × Parser σ
  | .expression bound =>
    let (found, after) := parser.expression bound
    (.expression found, after)
  | .program =>
    let (outcome, after) := parser.program
    (.program outcome, after)

def behind (parser : Parser σ) (requests : List Request) : Parser σ :=
  requests.foldl (fun parser request => (parser.answer request).2) parser

end Parser

/-! ### Moments -/

structure Moment (σ : Type) where
  given : List TokenItem
  parser : Parser σ

namespace Moment

variable {σ : Type}

def start (source : σ) : Moment σ := ⟨[], Parser.ofSource source⟩

variable [Source σ TokenItem]

/-- The moments that carrying out a reading goes through, one for each request it makes. -/
def ofReading {α : Type} : Reading α → Moment σ → List (Moment σ)
  | .done _, _ => []
  | .fail _, _ => []
  | .failAtLast _, _ => []
  | .look next, moment =>
    let (answer, parser) := moment.parser.peek
    let seen : Moment σ := ⟨moment.given, parser⟩
    match answer with
    | none => seen :: ofReading (next none) seen
    | some (.ok token) => seen :: ofReading (next (some token)) seen
    | some (.error _) => [seen]
  | .take next, moment =>
    let (answer, parser) := moment.parser.next
    let taken : Moment σ := ⟨moment.given ++ answer.toList, parser⟩
    match answer with
    | some (.ok token) => taken :: ofReading (next token) taken
    | _ => [taken]

def ofProgram : Nat → Moment σ → List (Moment σ)
  | 0, _ => []
  | limit + 1, moment =>
    let moments := ofReading (expression (moment.parser.remaining + 1) .lowest) moment
    match (moment.parser.expression .lowest).1 with
    | .ok (some tree) =>
      if tree.isVoid then moments else moments ++ ofProgram limit (moments.getLastD moment)
    | _ => moments

def ofRequest (moment : Moment σ) : Request → List (Moment σ)
  | .expression bound => ofReading (expression (moment.parser.remaining + 1) bound) moment
  | .program => ofProgram (moment.parser.remaining + 1) moment

def after (moment : Moment σ) (request : Request) : Moment σ :=
  (moment.ofRequest request).getLastD moment

/-- All moments of requests in a row, from the first one on. -/
def history (moment : Moment σ) : List Request → List (Moment σ)
  | [] => [moment]
  | request :: others =>
    moment :: (moment.ofRequest request ++ (moment.after request).history others)

end Moment

/-- The items that a parser gives out while it answers. -/
def Parser.given {σ : Type} [Source σ TokenItem] (parser : Parser σ) (request : Request) :
    List TokenItem :=
  (Moment.after ⟨[], parser⟩ request).given

/-! ### Nothing is lost -/

namespace Moment

variable {σ α : Type} [Source σ TokenItem] [LawfulSource σ] {moment later : Moment σ}
  {limit : Nat}

def whole (moment : Moment σ) : List TokenItem := moment.given ++ moment.parser.pending

theorem whole_peek (moment : Moment σ) :
    whole ⟨moment.given, moment.parser.peek.2⟩ = moment.whole := by
  unfold whole
  rw [Lookahead.peek_pending]

theorem whole_next (moment : Moment σ) :
    whole ⟨moment.given ++ moment.parser.next.1.toList, moment.parser.next.2⟩ = moment.whole := by
  unfold whole
  rw [Lookahead.next_fst, Lookahead.next_pending]
  cases moment.parser.pending <;> simp

theorem whole_ofReading (reading : Reading α) (among : later ∈ ofReading reading moment) :
    later.whole = moment.whole := by
  induction reading generalizing moment with
  | done value => cases among
  | fail failure => cases among
  | failAtLast fault => cases among
  | look next ih =>
      have kept := moment.whole_peek
      rw [ofReading] at among
      rcases peeked : moment.parser.peek with ⟨_ | ⟨failure | token⟩, parser⟩
      · rw [peeked] at among kept
        cases List.mem_cons.mp among with
        | inl here => rw [here, kept]
        | inr further => rw [ih none further, kept]
      · rw [peeked] at among kept
        rw [List.mem_singleton.mp among, kept]
      · rw [peeked] at among kept
        cases List.mem_cons.mp among with
        | inl here => rw [here, kept]
        | inr further => rw [ih (some token) further, kept]
  | take next ih =>
      have kept := moment.whole_next
      rw [ofReading] at among
      rcases taken : moment.parser.next with ⟨_ | ⟨failure | token⟩, parser⟩
      · rw [taken] at among kept
        rw [List.mem_singleton.mp among, kept]
      · rw [taken] at among kept
        rw [List.mem_singleton.mp among, kept]
      · rw [taken] at among kept
        cases List.mem_cons.mp among with
        | inl here => rw [here, kept]
        | inr further => rw [ih token further, kept]

omit [LawfulSource σ] in
theorem whole_getLastD {moments : List (Moment σ)}
    (kept : ∀ later ∈ moments, later.whole = moment.whole) :
    (moments.getLastD moment).whole = moment.whole := by
  cases moments with
  | nil => rfl
  | cons first others =>
      rw [List.getLastD_cons]
      exact kept _ List.getLastD_mem_cons

theorem whole_ofProgram (among : later ∈ ofProgram limit moment) :
    later.whole = moment.whole := by
  induction limit generalizing moment with
  | zero => cases among
  | succ limit ih =>
      rw [ofProgram] at among
      split at among
      · split at among
        · exact whole_ofReading _ among
        · rcases List.mem_append.mp among with first | further
          · exact whole_ofReading _ first
          · rw [ih further]
            exact whole_getLastD fun _ => whole_ofReading _
      · exact whole_ofReading _ among

theorem whole_ofRequest {request : Request} (among : later ∈ moment.ofRequest request) :
    later.whole = moment.whole := by
  cases request with
  | expression bound => exact whole_ofReading _ among
  | program => exact whole_ofProgram among

theorem whole_after (moment : Moment σ) (request : Request) :
    (moment.after request).whole = moment.whole :=
  whole_getLastD fun _ => whole_ofRequest

/-- Through all requests, the items given out and those still to come stay the same. -/
theorem whole_history {requests : List Request} (among : later ∈ moment.history requests) :
    later.whole = moment.whole := by
  induction requests generalizing moment with
  | nil => rw [List.mem_singleton.mp among]
  | cons request others ih =>
      rcases List.mem_cons.mp among with here | further
      · rw [here]
      · rcases List.mem_append.mp further with during | behind
        · exact whole_ofRequest during
        · rw [ih behind, whole_after]

/-! ### The last moment -/

omit [LawfulSource σ]

theorem ofReading_last (reading : Reading α) (moment : Moment σ) :
    ((ofReading reading moment).getLastD moment).parser = (reading.run moment.parser).2 := by
  induction reading generalizing moment with
  | done value => rfl
  | fail failure => rfl
  | failAtLast fault => rfl
  | look next ih =>
      rw [ofReading, Reading.run]
      rcases moment.parser.peek with ⟨_ | ⟨failure | token⟩, parser⟩
      · simp only [List.getLastD_cons]
        exact ih none _
      · rfl
      · simp only [List.getLastD_cons]
        exact ih (some token) _
  | take next ih =>
      rw [ofReading, Reading.run]
      rcases moment.parser.next with ⟨_ | ⟨failure | token⟩, parser⟩
      · rfl
      · rfl
      · simp only [List.getLastD_cons]
        exact ih token _

theorem ofProgram_last (limit : Nat) (moment : Moment σ) :
    ((ofProgram limit moment).getLastD moment).parser =
      (moment.parser.programWithin Parser.silent limit).2 := by
  induction limit generalizing moment with
  | zero => rfl
  | succ limit ih =>
      have first := ofReading_last (expression (moment.parser.remaining + 1) .lowest) moment
      change _ = (moment.parser.expression .lowest).2 at first
      rw [ofProgram]
      have step := Parser.programWithin_step Parser.silent limit moment.parser
      generalize Parser.programWithin Parser.silent (limit + 1) moment.parser = answered at step
      cases step with
      | failed parsed | ended parsed | stray parsed =>
          rw [parsed] at first ⊢
          exact first
      | element parsed solid =>
          have others := ih ((ofReading
            (expression (moment.parser.remaining + 1) .lowest) moment).getLastD moment)
          rw [parsed] at first ⊢
          rw [first] at others
          apply Eq.trans _ others
          simp [solid, List.getLast?_append, Option.getD_or]

theorem answer_after (moment : Moment σ) (request : Request) :
    (moment.after request).parser = (moment.parser.answer request).2 := by
  cases request with
  | expression bound => exact ofReading_last _ moment
  | program => exact ofProgram_last _ moment

/-- The history of requests ends at the parser they leave. -/
theorem history_last (moment : Moment σ) (requests : List Request) :
    (moment.history requests).getLast?.map Moment.parser =
      some (moment.parser.behind requests) := by
  induction requests generalizing moment with
  | nil => rfl
  | cons request others ih =>
      have later := ih (moment.after request)
      rw [answer_after] at later
      obtain ⟨last, found, same⟩ := Option.map_eq_some_iff.mp later
      rw [history, List.getLast?_cons, List.getLast?_append, found]
      exact congrArg some same

end Moment

/-! ### Items on hold -/

def Trail.holding (held : Option TokenItem) : Trail := ⟨[], held.map some⟩

theorem Trail.onto_holding (parser : Parser (List TokenItem)) :
    (Trail.holding parser.held).onto parser parser.source = parser := by
  obtain ⟨source, held, taken, last⟩ := parser
  cases held <;> rfl

theorem Trail.fits_holding (parser : Parser (List TokenItem)) :
    (Trail.holding parser.held).Fits parser.source := by
  intro ended
  unfold holding at ended
  cases held : parser.held with
  | none => rw [held] at ended; cases ended
  | some item => rw [held] at ended; cases ended

/-- A reading that begins with a look explores the same whether or not the item it
looks at was on hold before. -/
theorem Reading.Explores.unheld {α : Type} {next : Option Token → Reading α}
    {held : Option TokenItem} {ending : Except Halt α} {after : Trail}
    (explored : (Reading.look next).Explores (Trail.holding held) ending after) :
    (Reading.look next).Explores Trail.start ending after := by
  cases held with
  | none => exact explored
  | some item =>
      cases explored with
      | lookToken allowed following =>
          cases allowed.resolve_left nofun
          exact .lookToken (.inl rfl) following
      | lookEnd allowed _ =>
          cases allowed.resolve_left nofun
      | lookError allowed =>
          cases allowed.resolve_left nofun
          exact .lookError (.inl rfl)

theorem Halt.Justified.failure_onto {halt : Halt} {after : Trail} (justified : halt.Justified after)
    (base other : Parser (List TokenItem)) (later : List TokenItem) :
    halt.failure (after.onto base later).lastPlace =
      halt.failure (after.onto other later).lastPlace := by
  cases justified with
  | ended isEnd =>
      rw [Trail.lastPlace_onto rfl, Trail.lastPlace_onto rfl]
  | _ => rfl

/-- A fair reading that begins with a look runs alike on a parser and on a new one over
the items still to come, and leaves both the same items. -/
theorem Reading.Fair.run_fresh {α : Type} {next : Option Token → Reading α}
    {parser : Parser (List TokenItem)} {gives : α → Trail → Prop}
    (fair : (Reading.look next).Fair parser.pending.length Trail.start gives) :
    ((Reading.look next).run parser).1 =
        ((Reading.look next).run (Parser.ofSource parser.pending)).1 ∧
      ((Reading.look next).run parser).2.pending =
        ((Reading.look next).run (Parser.ofSource parser.pending)).2.pending := by
  obtain ⟨ending, after, later, explored, fits, kept, ran⟩ :=
    Reading.run_explores (.look next) (Trail.holding parser.held) parser
      (Trail.fits_holding parser)
  have whole : parser.pending = after.shown ++ later := by
    rw [← kept]
    unfold Lookahead.pending Trail.holding Trail.shown
    rw [Source.items_list]
    cases parser.held <;> rfl
  have split : Trail.start.shown ++ parser.pending = after.shown ++ later := whole
  have ranFresh := explored.unheld.run (Parser.ofSource []) fits split
  have fresh : Trail.start.onto (Parser.ofSource []) parser.pending =
      Parser.ofSource parser.pending := rfl
  rw [fresh] at ranFresh
  rw [Trail.onto_holding] at ran
  rw [ran, ranFresh]
  refine ⟨?_, rfl⟩
  cases ending with
  | ok value => rfl
  | error halt =>
      have justified := fair.justified explored.unheld (by
        rw [whole, List.length_append]
        exact Nat.le_add_left_of_le (Nat.le_add_right _ _))
      exact congrArg Except.error (justified.failure_onto _ _ _)

namespace Parser

theorem pending_fresh (items : List TokenItem) : (ofSource items).pending = items :=
  Source.items_list items

/-- A request is answered as by a new parser over the items still to come, and leaves
both the same items. -/
theorem answer_fresh (parser : Parser (List TokenItem)) (request : Request) :
    (parser.answer request).1 = ((ofSource parser.pending).answer request).1 ∧
      (parser.answer request).2.pending =
        ((ofSource parser.pending).answer request).2.pending := by
  have enough : parser.pending.length < parser.pending.length + 1 := Nat.lt_succ_self _
  have enoughFresh : (ofSource parser.pending).pending.length < parser.pending.length + 1 := by
    rw [pending_fresh]
    exact enough
  cases request with
  | expression bound =>
      have fair : (Grammar.expression (parser.pending.length + 1) bound).Fair
          parser.pending.length .start Leaves := expression_fair _ enough
      obtain ⟨found, left⟩ := Reading.Fair.run_fresh fair
      simp only [answer]
      rw [expression_eq_run enough, expression_eq_run enoughFresh]
      exact ⟨congrArg Answer.expression found, left⟩
  | program =>
      have fair : (programForm (parser.pending.length + 1) (parser.pending.length + 1)).Fair
          parser.pending.length .start Anything := programForm_fair enough
      obtain ⟨found, left⟩ := Reading.Fair.run_fresh fair
      simp only [answer]
      rw [program_eq_run enough enough, program_eq_run enoughFresh enoughFresh]
      exact ⟨congrArg (fun found => Answer.program (found.map Program.mk)) found, left⟩

theorem given_pending {σ : Type} [Source σ TokenItem] [LawfulSource σ] (parser : Parser σ)
    (request : Request) :
    parser.given request ++ (parser.answer request).2.pending = parser.pending := by
  have kept := Moment.whole_after ⟨[], parser⟩ request
  unfold Moment.whole at kept
  rw [Moment.answer_after] at kept
  exact kept

theorem given_fresh (parser : Parser (List TokenItem)) (request : Request) :
    parser.given request = (ofSource parser.pending).given request := by
  have given := parser.given_pending request
  have givenFresh := (ofSource parser.pending).given_pending request
  rw [pending_fresh, ← (answer_fresh parser request).2] at givenFresh
  exact List.append_cancel_right (given.trans givenFresh.symm)

end Parser

/-- Whatever a parser was asked before, it answers as a new parser over the items still
to come, the one on hold in front, and gives out the same items. At every moment, also
in the middle of an answer, the items given out, the one on hold and those not pulled
yet are the items it began with. -/
theorem answer_of_pending (items : List TokenItem) (requests : List Request)
    (request : Request) :
    let parser := (Parser.ofSource items).behind requests
    let fresh := Parser.ofSource (parser.held.toList ++ parser.source)
    (parser.answer request).1 = (fresh.answer request).1 ∧
      parser.given request = fresh.given request ∧
      ((Moment.start items).history requests).getLast?.map Moment.parser = some parser ∧
      ∀ moment ∈ (Moment.start items).history (requests ++ [request]),
        moment.given ++ moment.parser.held.toList ++ moment.parser.source = items := by
  intro parser fresh
  have pending : ∀ other : Parser (List TokenItem),
      other.held.toList ++ other.source = other.pending := by
    intro other
    unfold Lookahead.pending
    rw [Source.items_list]
  have same : fresh = Parser.ofSource parser.pending := congrArg Parser.ofSource (pending parser)
  rw [same]
  refine ⟨(parser.answer_fresh request).1, parser.given_fresh request,
    Moment.history_last (Moment.start items) requests, ?_⟩
  intro moment among
  have kept := Moment.whole_history among
  rw [List.append_assoc, pending]
  rw [Moment.whole, Moment.whole] at kept
  rw [kept]
  exact Parser.pending_fresh items

end Shading
