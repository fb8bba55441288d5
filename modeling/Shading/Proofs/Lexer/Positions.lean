import Shading.Proofs.Lexer.Failures
import Shading.Proofs.Lexer.Seam

/-!
Where the items of a text stand.

Reading never moves back, and a visible character moves on. So tokens stand one behind
the other, and an error behind all of them. Each stands at a character that is no blank,
and the line of such a character is a line of the text.
-/

namespace Shading

/-! ### The order of places -/

namespace Location

instance : LT Location where
  lt first second :=
    first.line < second.line ∨ first.line = second.line ∧ first.column < second.column

instance : LE Location where
  le first second :=
    first.line < second.line ∨ first.line = second.line ∧ first.column ≤ second.column

variable {first second third place : Location} {character : Char}

theorem lt_iff : first < second ↔
    first.line < second.line ∨ first.line = second.line ∧ first.column < second.column :=
  Iff.rfl

theorem le_iff : first ≤ second ↔
    first.line < second.line ∨ first.line = second.line ∧ first.column ≤ second.column :=
  Iff.rfl

theorem le_refl (place : Location) : place ≤ place := .inr ⟨rfl, Nat.le_refl _⟩

theorem le_trans (before : first ≤ second) (behind : second ≤ third) : first ≤ third := by
  rw [le_iff] at before behind ⊢
  omega

theorem lt_of_lt_of_le (before : first < second) (behind : second ≤ third) : first < third := by
  rw [lt_iff] at before ⊢
  rw [le_iff] at behind
  omega

theorem le_after (place : Location) (character : Char) : place ≤ place.after character := by
  unfold after
  by_cases feed : character = '\n'
  · rw [if_pos feed]
    exact .inl (Nat.lt_succ_self _)
  · rw [if_neg feed]
    by_cases control : Character.isControl character = true
    · rw [if_pos control]
      exact le_refl place
    · rw [if_neg control]
      exact .inr ⟨rfl, Nat.le_succ _⟩

theorem lt_after (place : Location) (visible : Character.isControl character = false) :
    place < place.after character := by
  unfold after
  by_cases feed : character = '\n'
  · rw [if_pos feed]
    exact .inl (Nat.lt_succ_self _)
  · rw [if_neg feed, visible, if_neg Bool.false_ne_true]
    exact .inr ⟨rfl, Nat.lt_succ_self _⟩

theorem le_afterAll (place : Location) (run : List Char) : place ≤ place.afterAll run := by
  induction run generalizing place with
  | nil => exact le_refl place
  | cons character others ih => exact le_trans (le_after place character) (ih _)

theorem line_after (place : Location) (character : Char) :
    (place.after character).line = place.line + if character = '\n' then 1 else 0 := by
  unfold after
  by_cases feed : character = '\n'
  · rw [if_pos feed, if_pos feed]
  · rw [if_neg feed, if_neg feed]
    by_cases control : Character.isControl character = true
    · rw [if_pos control, Nat.add_zero]
    · rw [if_neg control]
      rfl

end Location

/-! ### Visible beginnings -/

namespace Lexical

theorem operatorCharacter_visible {character : Char}
    (operator : Character.isOperator character = true) :
    Character.isControl character = false := by
  have visible : Character.operatorCharacters.all (fun other => !Character.isControl other) := by
    decide
  have listed : character ∈ Character.operatorCharacters := List.contains_iff_mem.mp operator
  have found := List.all_eq_true.mp visible character listed
  rwa [Bool.not_eq_true'] at found

theorem mark_visible (sign : Token.Punctuation) : Character.isControl sign.symbol = false := by
  cases sign <;> decide

/-- The control characters lie below the digits, and between the letters and the wide
characters of words. -/
theorem word_visible {character : Char} (word : Character.isWord character = true) :
    Character.isControl character = false := by
  have codes : 48 ≤ character.toNat ∧ character.toNat ≤ 122 ∨ 161 ≤ character.toNat :=
    word_codes word
  unfold Character.isControl
  simp only [Bool.or_eq_false_iff, Bool.and_eq_false_iff, decide_eq_false_iff_not]
  omega

theorem Lexeme.visible {run rest : List Char} {kind : Token.Kind} (found : Lexeme run kind rest) :
    ∃ first others, run = first :: others ∧ Character.isBlank first = false ∧
      Character.isControl first = false := by
  obtain ⟨first, others, begun, notBlank, _⟩ := TextCursor.lexeme_of_grammar .origin found
  refine ⟨first, others, begun, notBlank, ?_⟩
  have member : first ∈ run := by
    rw [begun]
    exact List.mem_cons_self
  cases found with
  | mark sign =>
      cases List.mem_singleton.mp member
      exact mark_visible sign
  | operator written ends => exact operatorCharacter_visible (operatorText_inside written _ member)
  | whole nonempty inside ends => exact word_visible (digit_isWord (inside _ member))
  | pointed nonempty inside fractionInside ends =>
      obtain ⟨head, tail, rfl⟩ := List.exists_cons_of_ne_nil nonempty
      cases begun
      exact word_visible (digit_isWord (inside _ List.mem_cons_self))
  | word written inside notDigit notBlank ends => exact word_visible (inside _ member)

end Lexical

/-! ### Characters of a text -/

/-- At a place of a text stands a character that is no blank. -/
def TextCursor.Shows (cursor : TextCursor) (first : Char) (place : Location) : Prop :=
  ∃ before behind, cursor.rest = before ++ first :: behind ∧
    Character.isBlank first = false ∧ place = cursor.location.afterAll before

namespace TextCursor

open Lexical

variable {cursor behind : TextCursor} {first : Char} {place : Location}

theorem Shows.behind_location (shows : cursor.Shows first place) : cursor.location ≤ place := by
  obtain ⟨before, _, _, _, rfl⟩ := shows
  exact Location.le_afterAll _ _

theorem Shows.widen {run : List Char} (shows : behind.Shows first place)
    (whole : cursor.rest = run ++ behind.rest)
    (moved : behind.location = cursor.location.afterAll run) : cursor.Shows first place := by
  obtain ⟨before, later, split, notBlank, rfl⟩ := shows
  refine ⟨run ++ before, later, ?_, notBlank, ?_⟩
  · rw [whole, split, List.append_assoc]
  · rw [moved]
    exact (Location.afterAll_append _ _ _).symm

/-- A token stands at its first character, and reading moves past it. -/
theorem token_placed {found : Token} (read : cursor.token = (.ok (some found), behind)) :
    (∃ first, cursor.Shows first found.location) ∧ found.location < behind.location ∧
      ∃ run, cursor.rest = run ++ behind.rest ∧
        behind.location = cursor.location.afterAll run := by
  obtain ⟨blanks, run, _, lexeme, whole, placed, moved⟩ := token_some read
  obtain ⟨first, others, rfl, notBlank, visible⟩ := lexeme.visible
  refine ⟨⟨first, blanks, others ++ behind.rest, whole, notBlank, placed⟩, ?_,
    blanks ++ first :: others, ?_, ?_⟩
  · rw [moved, ← placed]
    exact Location.lt_of_lt_of_le (Location.lt_after _ visible) (Location.le_afterAll _ others)
  · rw [whole, List.append_assoc]
  · rw [moved, Location.afterAll_append]

/-- An error stands at a character that is no blank: at the first one of what fails, or at
a second point. -/
theorem error_placed {failure : SyntaxError} (read : cursor.token = (.error failure, behind)) :
    ∃ first, cursor.Shows first failure.location := by
  obtain ⟨blanks, start, _, whole, moved, fails⟩ := token_error read
  have shown : ∃ first, start.Shows first failure.location := by
    cases fails with
    | @symbol rest first place notBlank outside => exact ⟨first, [], rest, rfl, notBlank, rfl⟩
    | @run others rest first place notBlank inside ends noOperator =>
        exact ⟨first, [], others ++ rest, rfl, notBlank, rfl⟩
    | @point others fraction later first begun place inside fractionInside placed =>
        refine ⟨'.', first :: others ++ '.' :: fraction, later, ?_, by decide, placed⟩
        rw [List.append_assoc]
        rfl
  obtain ⟨first, shows⟩ := shown
  exact ⟨first, shows.widen whole moved⟩

end TextCursor

/-! ### Items of a text -/

def itemPlace : TokenItem → Location
  | .ok token => token.location
  | .error failure => failure.location

namespace Lexer

/-- The items of a lexer stand one behind the other, each at a character that is no
blank. -/
theorem items_placed (cursor : TextCursor) :
    (Source.items (Lexer.mk cursor false)).Pairwise
        (fun earlier later => itemPlace earlier < itemPlace later) ∧
      ∀ item ∈ Source.items (Lexer.mk cursor false),
        ∃ first, cursor.Shows first (itemPlace item) := by
  induction cursor using lexing_induction with
  | refused cursor behind failure read =>
      rw [items_of_error read]
      refine ⟨List.pairwise_singleton _ _, fun item member => ?_⟩
      cases List.mem_singleton.mp member
      exact TextCursor.error_placed read
  | ended cursor behind read =>
      rw [items_of_none read]
      exact ⟨.nil, List.forall_mem_nil _⟩
  | token cursor behind found read ih =>
      obtain ⟨ordered, shown⟩ := ih
      obtain ⟨standing, passed, run, whole, moved⟩ := TextCursor.token_placed read
      rw [items_of_token read]
      -- What stands behind the token stands behind the cursor it left, which is past the token.
      refine ⟨.cons (fun item member => ?_) ordered, fun item member => ?_⟩
      · obtain ⟨first, shows⟩ := shown item member
        exact Location.lt_of_lt_of_le passed shows.behind_location
      · rcases List.mem_cons.mp member with rfl | later
        · exact standing
        · obtain ⟨first, shows⟩ := shown item later
          exact ⟨first, shows.widen whole moved⟩

end Lexer

/-! ### Lines of a text -/

namespace Text

theorem linesFrom_ne_nil (line rest : List Char) (begun : line ≠ []) :
    linesFrom line rest ≠ [] := by
  induction rest generalizing line with
  | nil =>
      unfold linesFrom
      rw [List.isEmpty_eq_false_iff.mpr begun]
      exact List.cons_ne_nil _ _
  | cons character others ih =>
      unfold linesFrom
      by_cases feed : character = '\n'
      · rw [if_pos feed]
        exact List.cons_ne_nil _ _
      · rw [if_neg feed]
        exact ih _ (List.append_ne_nil_of_right_ne_nil _ (List.cons_ne_nil _ _))

theorem line_lt_linesFrom {first : Char} (line before behind : List Char) (place : Location)
    (noFeed : first ≠ '\n') :
    (place.afterAll before).line <
      place.line + (linesFrom line (before ++ first :: behind)).length := by
  induction before generalizing line place with
  | nil =>
      have nonempty := linesFrom_ne_nil (line ++ [first]) behind
      rw [List.nil_append, linesFrom, if_neg noFeed]
      exact Nat.lt_add_of_pos_right (List.length_pos_iff.mpr (nonempty (by simp)))
  | cons character others ih =>
      -- A line feed ends the line that was begun, and anything else lengthens it.
      rw [List.cons_append, linesFrom]
      change ((place.after character).afterAll others).line < _
      by_cases feed : character = '\n'
      · have below := ih [] (place.after character)
        rw [Location.line_after, if_pos feed] at below
        rw [if_pos feed, List.length_cons]
        omega
      · have below := ih (line ++ [character]) (place.after character)
        rw [Location.line_after, if_neg feed] at below
        rw [if_neg feed]
        exact below

/-- What stands in a text, and is no blank, stands on one of its lines. -/
theorem line_lt_lines {source : String} {first : Char} {place : Location}
    (shows : (TextCursor.ofString source).Shows first place) :
    place.line < (lines source).length := by
  obtain ⟨before, behind, split, notBlank, rfl⟩ := shows
  have noFeed : first ≠ '\n' := by
    rintro rfl
    cases notBlank
  have below := line_lt_linesFrom [] before behind .origin noFeed
  rw [← show source.toList = _ from split] at below
  exact Nat.lt_of_lt_of_eq below (Nat.zero_add _)

end Text

/-! ### Tokens and errors of a text -/

variable {source : String} {token : Token} {failure : SyntaxError}

theorem item_line {item : TokenItem} (member : item ∈ Source.items (Lexer.ofString source)) :
    (itemPlace item).line < (Text.lines source).length := by
  obtain ⟨first, shows⟩ := (Lexer.items_placed _).2 item member
  exact Text.line_lt_lines shows

theorem item_cases {item : TokenItem} :
    item ∈ Source.items (Lexer.ofString source) ↔
      (∃ token ∈ (tokensUntilError source).1, .ok token = item) ∨
        ∃ failure, (tokensUntilError source).2 = some failure ∧ .error failure = item := by
  rw [items_eq_tokensUntilError, List.mem_append, List.mem_map, List.mem_map]
  simp only [Option.mem_toList]

theorem item_of_token (member : token ∈ (tokensUntilError source).1) :
    .ok token ∈ Source.items (Lexer.ofString source) :=
  item_cases.mpr (.inl ⟨token, member, rfl⟩)

theorem item_of_failure (failed : (tokensUntilError source).2 = some failure) :
    .error failure ∈ Source.items (Lexer.ofString source) :=
  item_cases.mpr (.inr ⟨failure, failed, rfl⟩)

theorem token_of_item (member : .ok token ∈ Source.items (Lexer.ofString source)) :
    token ∈ (tokensUntilError source).1 := by
  rcases item_cases.mp member with ⟨found, among, same⟩ | ⟨found, _, absurdity⟩
  · cases same
    exact among
  · cases absurdity

theorem failure_of_item (member : .error failure ∈ Source.items (Lexer.ofString source)) :
    (tokensUntilError source).2 = some failure := by
  rcases item_cases.mp member with ⟨found, _, absurdity⟩ | ⟨found, last, same⟩
  · cases absurdity
  · cases same
    exact last

/-- The tokens of a text stand before its first lexical error. -/
theorem token_before_failure (member : token ∈ (tokensUntilError source).1)
    (failed : (tokensUntilError source).2 = some failure) :
    token.location < failure.location := by
  have ordered := (Lexer.items_placed (TextCursor.ofString source)).1
  rw [show Source.items (Lexer.mk _ false) = _ from items_eq_tokensUntilError source, failed]
    at ordered
  exact (List.pairwise_append.mp ordered).2.2 (.ok token) (List.mem_map_of_mem member)
    (.error failure) (List.mem_singleton_self _)

end Shading
