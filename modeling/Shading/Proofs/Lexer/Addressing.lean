import Shading.Proofs.Lexer.Positions

/-!
Places find characters.

A place counts the line feeds before it and the visible characters before it on its line.
So on the lines of a text, with their control characters left out, the place of a visible
character finds that character; and what a lexer gives out stands at the first character of
what it is about.
-/

namespace Shading

/-! ### Characters at places -/

namespace Text

def visible (line : List Char) : List Char :=
  line.filter fun character => !Character.isControl character

/-- The character at a place of a text, where control characters are not counted. -/
def characterAt? (source : String) (place : Location) : Option Char :=
  ((lines source)[place.line]?).bind fun line => (visible line)[place.column]?

variable {line : List Char} {character first : Char}

theorem visible_append (line later : List Char) :
    visible (line ++ later) = visible line ++ visible later :=
  List.filter_append ..

theorem visible_of_control (control : Character.isControl character = true) :
    visible [character] = [] := by
  unfold visible
  rw [List.filter_cons_of_neg (by rw [control]; exact Bool.false_ne_true)]
  rfl

theorem visible_singleton (shown : Character.isControl character = false) :
    visible [character] = [character] := by
  unfold visible
  rw [List.filter_cons_of_pos (by rw [shown]; rfl)]
  rfl

theorem visible_endedLine (line : List Char) : visible (endedLine line) = visible line := by
  unfold endedLine
  by_cases returned : line.getLast? = some '\r'
  · rw [if_pos returned]
    obtain ⟨before, rfl⟩ := List.getLast?_eq_some_iff.mp returned
    rw [List.dropLast_concat, visible_append, visible_of_control (by decide), List.append_nil]
  · rw [if_neg returned]

theorem linesFrom_head (rest : List Char) (begun : line ≠ []) :
    ∃ found later, (linesFrom line rest)[0]? = some found ∧
      visible found = visible line ++ later := by
  induction rest generalizing line with
  | nil =>
      refine ⟨line, [], ?_, (List.append_nil _).symm⟩
      rw [linesFrom, List.isEmpty_eq_false_iff.mpr begun]
      rfl
  | cons character others ih =>
      rw [linesFrom]
      by_cases feed : character = '\n'
      · rw [if_pos feed]
        refine ⟨endedLine line, [], rfl, ?_⟩
        rw [visible_endedLine, List.append_nil]
      · rw [if_neg feed]
        obtain ⟨found, later, head, shown⟩ := ih (List.append_ne_nil_of_left_ne_nil begun _)
        refine ⟨found, visible [character] ++ later, head, ?_⟩
        rw [shown, visible_append, List.append_assoc]

/-- A visible character stands on its line behind as many visible characters as its column
says. -/
theorem linesFrom_character (line before behind : List Char) (place : Location)
    (column : place.column = (visible line).length)
    (shown : Character.isControl first = false) :
    ∃ index found, (place.afterAll before).line = place.line + index ∧
      (linesFrom line (before ++ first :: behind))[index]? = some found ∧
        (visible found)[(place.afterAll before).column]? = some first := by
  induction before generalizing line place with
  | nil =>
      have noFeed : first ≠ '\n' := by
        rintro rfl
        cases shown
      rw [List.nil_append, linesFrom, if_neg noFeed]
      have begun : line ++ [first] ≠ [] := List.concat_ne_nil _ _
      obtain ⟨found, later, head, goesOn⟩ := linesFrom_head behind begun
      refine ⟨0, found, rfl, head, ?_⟩
      change (visible found)[place.column]? = some first
      rw [goesOn, visible_append, visible_singleton shown, column, List.append_assoc,
        List.getElem?_append_right (Nat.le_refl _), Nat.sub_self]
      rfl
  | cons character others ih =>
      rw [List.cons_append, linesFrom]
      change ∃ index found, ((place.after character).afterAll others).line = _ ∧ _ ∧
        (visible found)[((place.after character).afterAll others).column]? = _
      by_cases feed : character = '\n'
      · -- The line that was begun is ended, and the next one begins at column zero.
        subst feed
        obtain ⟨index, found, counted, listed, stands⟩ := ih [] (place.after '\n') rfl
        refine ⟨index + 1, found, ?_, ?_, stands⟩
        · rw [counted, Location.line_after, if_pos rfl]
          omega
        · rw [if_pos rfl, List.getElem?_cons_succ]
          exact listed
      · have longer : (place.after character).column = (visible (line ++ [character])).length := by
          rw [visible_append, List.length_append, ← column]
          unfold Location.after
          rw [if_neg feed]
          by_cases control : Character.isControl character = true
          · rw [if_pos control, visible_of_control control]
            rfl
          · rw [if_neg control, visible_singleton (Bool.eq_false_iff.mpr control)]
            rfl
        obtain ⟨index, found, counted, listed, stands⟩ := ih _ _ longer
        refine ⟨index, found, ?_, ?_, stands⟩
        · rw [counted, Location.line_after, if_neg feed, Nat.add_zero]
        · rw [if_neg feed]
          exact listed

/-- The place of a visible character finds it. -/
theorem characterAt?_placed {source : String} {before behind : List Char}
    (whole : source.toList = before ++ first :: behind)
    (shown : Character.isControl first = false) :
    characterAt? source (Location.origin.afterAll before) = some first := by
  obtain ⟨index, found, counted, listed, stands⟩ :=
    linesFrom_character [] before behind .origin rfl shown
  have line : (Location.origin.afterAll before).line = index := counted.trans (Nat.zero_add _)
  unfold characterAt? lines
  rw [whole, line, listed]
  exact stands

end Text

/-! ### What an item is about -/

open Lexical

/-- The characters that an item is about, and what stands behind them: the lexeme of a token, the
run that is no operator, or the character that is refused. -/
inductive Concerns : TokenItem → List Char → List Char → Prop where
  | token {run rest : List Char} {kind : Token.Kind} {place : Location}
      (lexeme : Lexeme run kind rest) : Concerns (.ok ⟨kind, place⟩) run rest
  | run {run rest : List Char} {place : Location}
      (inside : ∀ character ∈ run, Character.isOperator character = true)
      (ends : StopsAt Character.isOperator rest) (unknown : operatorKind? run = none) :
      Concerns (.error ⟨place, .invalidOperatorRun (String.ofList run)⟩) run rest
  | symbol {symbol : Char} {rest : List Char} {place : Location} :
      Concerns (.error ⟨place, .unexpectedSymbol symbol⟩) [symbol] rest

/-- The item refuses a control character, which takes no column to be found at. -/
def RefusesControl (item : TokenItem) : Prop :=
  ∃ place symbol, item = .error ⟨place, .unexpectedSymbol symbol⟩ ∧
    Character.isControl symbol = true

def TextCursor.Holds (cursor : TextCursor) (item : TokenItem) : Prop :=
  ∃ before first others behind, cursor.rest = before ++ (first :: others ++ behind) ∧
    itemPlace item = cursor.location.afterAll before ∧ Concerns item (first :: others) behind ∧
      (¬ RefusesControl item → Character.isControl first = false)

namespace TextCursor

variable {cursor behind : TextCursor}

theorem Holds.widen {run : List Char} {item : TokenItem} (holds : behind.Holds item)
    (whole : cursor.rest = run ++ behind.rest)
    (moved : behind.location = cursor.location.afterAll run) : cursor.Holds item := by
  obtain ⟨before, first, others, later, split, placed, about, shown⟩ := holds
  refine ⟨run ++ before, first, others, later, ?_, ?_, about, shown⟩
  · rw [whole, split, List.append_assoc]
  · rw [placed, moved, Location.afterAll_append]

theorem holds_token {found : Token} (read : cursor.token = (.ok (some found), behind)) :
    cursor.Holds (.ok found) := by
  obtain ⟨blanks, run, _, lexeme, whole, placed, _⟩ := token_some read
  obtain ⟨first, others, rfl, _, shown⟩ := lexeme.visible
  exact ⟨blanks, first, others, behind.rest, whole, placed, .token lexeme, fun _ => shown⟩

theorem holds_error {failure : SyntaxError} (read : cursor.token = (.error failure, behind)) :
    cursor.Holds (.error failure) := by
  obtain ⟨blanks, start, _, whole, moved, fails⟩ := token_error read
  have held : start.Holds (.error failure) := by
    cases fails with
    | @symbol rest first place _ _ =>
        refine ⟨[], first, [], rest, rfl, rfl, .symbol, fun shown => ?_⟩
        exact Bool.eq_false_iff.mpr fun control => shown ⟨place, first, rfl, control⟩
    | @run others rest first place _ inside ends unknown =>
        have operator := inside first List.mem_cons_self
        exact ⟨[], first, others, rest, rfl, rfl, .run inside ends unknown,
          fun _ => operatorCharacter_visible operator⟩
    | @point others fraction later first begun place _ _ placed =>
        refine ⟨first :: others ++ '.' :: fraction, '.', [], later, ?_, placed, .symbol,
          fun _ => by decide⟩
        rw [List.append_assoc]
        rfl
  exact held.widen whole moved

end TextCursor

/-- Every item of a lexer is about characters of the text, at its place. -/
theorem Lexer.items_held (cursor : TextCursor) :
    ∀ item ∈ Source.items (Lexer.mk cursor false), cursor.Holds item := by
  induction cursor using lexing_induction with
  | refused cursor behind failure read =>
      rw [items_of_error read]
      intro item member
      cases List.mem_singleton.mp member
      exact TextCursor.holds_error read
  | ended cursor behind read =>
      rw [items_of_none read]
      exact List.forall_mem_nil _
  | token cursor behind found read ih =>
      obtain ⟨_, _, run, whole, moved⟩ := TextCursor.token_placed read
      rw [items_of_token read]
      intro item member
      rcases List.mem_cons.mp member with rfl | later
      · exact TextCursor.holds_token read
      · exact (ih item later).widen whole moved

/-! ### Tokens and errors of a text -/

/-- An item stands on a line of a text, at the first character of what it is about: that line
has the character at the column of the item, if control characters are not counted. Only a
control character that is refused is not found so. -/
structure Addressed (source : String) (item : TokenItem) : Prop where
  line_lt : (itemPlace item).line < (Text.lines source).length
  stands : ∃ before first others behind,
    source.toList = before ++ (first :: others ++ behind) ∧
      itemPlace item = Location.origin.afterAll before ∧
        Concerns item (first :: others) behind ∧
          (¬ RefusesControl item → Text.characterAt? source (itemPlace item) = some first)

theorem item_addressed {source : String} {item : TokenItem}
    (member : item ∈ Source.items (Lexer.ofString source)) : Addressed source item := by
  refine ⟨item_line member, ?_⟩
  obtain ⟨before, first, others, behind, whole, placed, about, shown⟩ :=
    Lexer.items_held (TextCursor.ofString source) item member
  refine ⟨before, first, others, behind, whole, placed, about, fun found => ?_⟩
  rw [placed]
  exact Text.characterAt?_placed whole (shown found)

/-- The tokens of a text stand one behind the other, its lexical error stands behind them all,
and each of them is found in the text at its place. -/
theorem items_addressed (source : String) :
    let tokens := (tokensUntilError source).1
    let failure := (tokensUntilError source).2
    (tokens.Pairwise fun earlier later => earlier.location < later.location) ∧
      (∀ token ∈ tokens, ∀ error ∈ failure, token.location < error.location) ∧
        (∀ token ∈ tokens, Addressed source (.ok token)) ∧
          ∀ error ∈ failure, Addressed source (.error error) := by
  have ordered := (Lexer.items_placed (TextCursor.ofString source)).1
  rw [show Source.items (Lexer.mk _ false) = _ from items_eq_tokensUntilError source] at ordered
  refine ⟨?_, ?_, ?_, ?_⟩
  · obtain ⟨among, _, _⟩ := List.pairwise_append.mp ordered
    rw [List.pairwise_map] at among
    exact among
  · intro token member error failed
    exact token_before_failure member failed
  · intro token member
    exact item_addressed (item_of_token member)
  · intro error failed
    exact item_addressed (item_of_failure failed)

def tabbedNumeral : String := "f(\r\n\t7.5.)"

theorem items_addressed_of_tabbedNumeral :
    (⟨.mark .leftParenthesis, ⟨0, 1⟩⟩ ∈ (tokensUntilError tabbedNumeral).1 ∧
      (tokensUntilError tabbedNumeral).2 = some ⟨⟨1, 3⟩, .unexpectedSymbol '.'⟩) ∧
    Addressed tabbedNumeral (.ok ⟨.mark .leftParenthesis, ⟨0, 1⟩⟩) ∧
    (⟨0, 1⟩ : Location) < ⟨1, 3⟩ ∧ Text.characterAt? tabbedNumeral ⟨1, 3⟩ = some '.' := by
  have listed : ⟨.mark .leftParenthesis, ⟨0, 1⟩⟩ ∈ (tokensUntilError tabbedNumeral).1 :=
    .tail _ (.head _)
  have failed : (tokensUntilError tabbedNumeral).2 =
      some ⟨⟨1, 3⟩, .unexpectedSymbol '.'⟩ := by rfl
  obtain ⟨_, before, tokens, errors⟩ := items_addressed tabbedNumeral
  obtain ⟨_, _, first, others, behind, _, _, about, found⟩ := errors _ failed
  refine ⟨⟨listed, failed⟩, tokens _ listed, before _ listed _ failed, ?_⟩
  cases about with
  | symbol =>
      apply found
      rintro ⟨_, _, same, control⟩
      cases same
      cases control

end Shading
