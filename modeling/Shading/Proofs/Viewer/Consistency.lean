import Shading.Proofs.Laziness
import Shading.Proofs.Lexer.Positions
import Shading.Viewer.Session

/-!
What a session of the viewer keeps.

Whatever happens in a session relates it to the session before by a preorder, so a
whole run is related to its beginning by the same preorder. What a session is at its
beginning, and the order of places in its text, give everything else.
-/

namespace Shading

namespace Session

/-! ### Events -/

/-- What can happen in a session. -/
inductive Event where
  | press (key : Key)
  | draw (area : Area)

variable {κ : Type} (renderer : Renderer κ)

def after (session : Session) : Event → Session
  | .press key => session.press key
  | .draw area => (session.draw renderer area).1

def afterAll (session : Session) (events : List Event) : Session :=
  events.foldl (after renderer) session

def ShowsToken (session : Session) : Prop :=
  ∃ token, session.tokens[session.selected]? = some token ∧
    session.status = "Token " ++ toString (session.selected + 1) ++ "/" ++
      toString session.tokens.length ++ ": " ++ token.text

/-! ### What an event keeps -/

structure LeadsTo (earlier later : Session) : Prop where
  source : later.source = earlier.source
  tokens : later.tokens = earlier.tokens
  outcome : later.outcome = earlier.outcome
  rows : later.rows = earlier.rows
  quit : earlier.quit = true → later.quit = true
  scroll : earlier.treeScroll ≤ earlier.rows.length - 1 →
    later.treeScroll ≤ earlier.rows.length - 1
  selection : later.selected = earlier.selected ∧ later.status = earlier.status ∨ later.ShowsToken

variable {first second third : Session}

theorem LeadsTo.trans (begun : first.LeadsTo second) (gone : second.LeadsTo third) :
    first.LeadsTo third where
  source := gone.source.trans begun.source
  tokens := gone.tokens.trans begun.tokens
  outcome := gone.outcome.trans begun.outcome
  rows := gone.rows.trans begun.rows
  quit stopped := gone.quit (begun.quit stopped)
  scroll within := by
    have further := gone.scroll
    rw [begun.rows] at further
    exact further (begun.scroll within)
  selection := by
    rcases gone.selection with ⟨selected, status⟩ | shows
    · rw [selected, status]
      rcases begun.selection with kept | ⟨token, found, told⟩
      · exact .inl kept
      · refine .inr ⟨token, ?_, ?_⟩
        · rw [gone.tokens, selected, found]
        · rw [gone.tokens, selected, status, told]
    · exact .inr shows

theorem leadsTo_viewed (session : Session) (focus : Focus) (sourceScroll : SourceScroll)
    (tokenScroll : Nat) {treeScroll : Nat} {quit : Bool}
    (within : session.treeScroll ≤ session.rows.length - 1 →
      treeScroll ≤ session.rows.length - 1)
    (stopped : session.quit = true → quit = true) :
    session.LeadsTo
      { session with
        focus := focus
        sourceScroll := sourceScroll
        tokenScroll := tokenScroll
        treeScroll := treeScroll
        quit := quit } :=
  ⟨rfl, rfl, rfl, rfl, stopped, within, .inl ⟨rfl, rfl⟩⟩

theorem leadsTo_self (session : Session) : session.LeadsTo session :=
  leadsTo_viewed session _ _ _ id id

theorem leadsTo_select (session : Session) (index : Nat) :
    session.LeadsTo (session.select index) := by
  unfold select
  dsimp only
  cases found : session.tokens[min index (session.tokens.length - 1)]? with
  | none => exact leadsTo_self session
  | some token => exact ⟨rfl, rfl, rfl, rfl, id, id, .inr ⟨token, found, rfl⟩⟩

theorem leadsTo_selectIn (session : Session) (index : Nat) :
    session.LeadsTo (if session.focus = .tokens then session.select index else session) := by
  by_cases focused : session.focus = .tokens
  · rw [if_pos focused]
    exact leadsTo_select session index
  · rw [if_neg focused]
    exact leadsTo_self session

theorem leadsTo_moveUp (session : Session) (steps : Nat) :
    session.LeadsTo (session.moveUp steps) := by
  unfold moveUp
  cases session.focus with
  | source => exact leadsTo_viewed session _ _ _ id id
  | tokens => exact leadsTo_select session _
  | tree => exact leadsTo_viewed session _ _ _ (fun within => by omega) id

theorem leadsTo_moveDown (session : Session) (steps : Nat) :
    session.LeadsTo (session.moveDown steps) := by
  unfold moveDown
  cases session.focus with
  | source => exact leadsTo_viewed session _ _ _ id id
  | tokens => exact leadsTo_select session _
  | tree => exact leadsTo_viewed session _ _ _ (fun _ => Nat.min_le_right _ _) id

theorem leadsTo_press (session : Session) (key : Key) : session.LeadsTo (session.press key) := by
  unfold press
  split
  · exact leadsTo_viewed session _ _ _ id (fun _ => rfl)
  · exact leadsTo_viewed session _ _ _ id (fun _ => rfl)
  · exact leadsTo_viewed session _ _ _ id (fun _ => rfl)
  · exact leadsTo_viewed session _ _ _ id id
  · exact leadsTo_viewed session _ _ _ id id
  · exact leadsTo_moveUp session 1
  · exact leadsTo_moveDown session 1
  · exact leadsTo_moveUp session pageSteps
  · exact leadsTo_moveDown session pageSteps
  · exact leadsTo_selectIn session _
  · exact leadsTo_selectIn session _
  · exact leadsTo_self session

theorem leadsTo_draw (session : Session) (area : Area) :
    session.LeadsTo (session.draw renderer area).1 := by
  refine leadsTo_viewed session _ _ _ (fun within => ?_) id
  unfold TreePane.scrolled
  by_cases failed : session.failure?.isSome = true
  · rw [if_pos failed]
    exact within
  · rw [if_neg failed]
    exact Nat.min_le_right _ _

theorem leadsTo_after (session : Session) (event : Event) :
    session.LeadsTo (session.after renderer event) := by
  cases event with
  | press key => exact leadsTo_press session key
  | draw area => exact leadsTo_draw renderer session area

theorem leadsTo_afterAll (session : Session) (events : List Event) :
    session.LeadsTo (session.afterAll renderer events) := by
  induction events generalizing session with
  | nil => exact leadsTo_self session
  | cons event others ih => exact (leadsTo_after renderer session event).trans (ih _)

theorem afterAll_append (session : Session) (events later : List Event) :
    session.afterAll renderer (events ++ later) =
      (session.afterAll renderer events).afterAll renderer later :=
  List.foldl_append

/-! ### Sessions of a text -/

/-- A session that agrees with a text and with itself. -/
structure Consistent (text : String) (session : Session) : Prop where
  source : session.source = text
  tokens : session.tokens = (tokensUntilError text).1
  outcome : session.outcome = parse text
  rows : session.rows = rowsOf (parse text)
  selected : session.selected < session.tokens.length ∨
    session.tokens = [] ∧ session.selected = 0
  treeScroll : session.treeScroll ≤ session.rows.length - 1
  /-- A token or an error gives a line to keep in view. -/
  current : session.tokens ≠ [] ∨ session.failure?.isSome = true →
    session.currentLine?.isSome = true
  /-- The line to keep in view and the line of the error are lines of the text. -/
  lines : ∀ line, session.currentLine? = some line ∨ session.errorLine? = some line →
    line < (Text.lines text).length
  status : session.status = (ofSource text).status ∧ session.selected = 0 ∨ session.ShowsToken

variable {source : String} {session : Session} {line : Nat}

theorem ShowsToken.selected_lt (shows : session.ShowsToken) :
    session.selected < session.tokens.length := by
  obtain ⟨token, found, _⟩ := shows
  exact (List.getElem?_eq_some_iff.mp found).1

theorem currentLine?_cases (current : session.currentLine? = some line) :
    (∃ token ∈ session.tokens, line = token.location.line) ∨ session.errorLine? = some line := by
  unfold currentLine? at current
  cases found : session.tokens[session.selected]? with
  | some token =>
      rw [found] at current
      cases current
      exact .inl ⟨token, List.mem_of_getElem? found, rfl⟩
  | none =>
      rw [found] at current
      exact .inr current

theorem currentLine?_isSome
    (reached : session.selected < session.tokens.length ∨ session.failure?.isSome = true) :
    session.currentLine?.isSome = true := by
  unfold currentLine?
  cases found : session.tokens[session.selected]? with
  | some token => rfl
  | none =>
      rcases reached with within | failed
      · have outside := List.getElem?_eq_none_iff.mp found
        omega
      · dsimp only
        rw [Option.isSome_map]
        exact failed

theorem errorLine?_lt (outcome : session.outcome = parse source)
    (wrong : session.errorLine? = some line) : line < (Text.lines source).length := by
  unfold errorLine? failure? at wrong
  rw [outcome] at wrong
  cases failed : parse source with
  | ok program =>
      rw [failed] at wrong
      cases wrong
  | error failure =>
      rw [failed] at wrong
      cases wrong
      rcases Parser.parse_error_cases failed with member | ⟨token, member, place⟩
      · exact item_line member
      · change failure.location.line < _
        rw [place]
        exact item_line member

/-- A session of a text that was led on from its beginning is consistent. -/
theorem LeadsTo.consistent (leads : (ofSource source).LeadsTo session) :
    Consistent source session := by
  have selected : session.selected < session.tokens.length ∨
      session.tokens = [] ∧ session.selected = 0 := by
    -- An unmoved selection is the first one, which is a token unless there are none.
    rcases leads.selection with ⟨unmoved, _⟩ | shows
    · rw [unmoved]
      cases session.tokens with
      | nil => exact .inr ⟨rfl, rfl⟩
      | cons token others => exact .inl (Nat.succ_pos _)
    · exact .inl shows.selected_lt
  have error : ∀ line, session.errorLine? = some line → line < (Text.lines source).length :=
    fun line => errorLine?_lt leads.outcome
  refine ⟨leads.source, leads.tokens, leads.outcome, leads.rows, selected, ?_, ?_, ?_, ?_⟩
  · rw [leads.rows]
    exact leads.scroll (Nat.zero_le _)
  · rintro (nonempty | failed)
    · have within := selected.resolve_right fun unselected => nonempty unselected.1
      exact currentLine?_isSome (.inl within)
    · exact currentLine?_isSome (.inr failed)
  · rintro line (current | wrong)
    · rcases currentLine?_cases current with ⟨token, member, rfl⟩ | wrong
      · rw [leads.tokens] at member
        exact item_line (item_of_token member)
      · exact error line wrong
    · exact error line wrong
  · rcases leads.selection with ⟨selected, status⟩ | shows
    · exact .inl ⟨status, selected⟩
    · exact .inr shows

/-- A session of a text stays consistent whatever keys are pressed and however it is drawn,
and once it was told to quit, nothing takes that back. -/
theorem session_consistent (source : String) (events : List Event) :
    Consistent source ((ofSource source).afterAll renderer events) ∧
      ∀ later, ((ofSource source).afterAll renderer events).quit = true →
        ((ofSource source).afterAll renderer (events ++ later)).quit = true := by
  refine ⟨(leadsTo_afterAll renderer _ events).consistent, fun later stopped => ?_⟩
  rw [afterAll_append]
  exact (leadsTo_afterAll renderer _ later).quit stopped

end Session

end Shading
