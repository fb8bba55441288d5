import Mathlib.Data.List.Induction
import Shading.Proofs.Lexer.Tokens
import Shading.Viewer.Highlight

/-!
Highlighting and the lexer.

Lines are coloured without the lexer, by tables of their own. No character is lost on the way,
and a word gets the colour that the kind of its token asks for.
-/

namespace Shading.Highlight

open Lexical

/-! ### What a kind of word asks for -/

def constants : List Token.Keyword := [.true, .false, .position, .color]

def roles : List Token.Keyword := [.uniform, .input, .varying]

def isConstant : Token.Kind → Bool
  | .keyword word => constants.contains word
  | _ => false

def isRole : Token.Kind → Bool
  | .keyword word => roles.contains word
  | _ => false

def isStatementWord : Token.Kind → Bool
  | .keyword word => !constants.contains word && !roles.contains word
  | _ => false

/-- The style agrees with the kind of a word. It matters whether the sign of a pipeline value
stands before the word, and whether an opening parenthesis follows it. -/
structure ColoredAs (kind : Token.Kind) (signed called : Bool) (style : Style) : Prop where
  typeName : style.foreground = some Theme.typeName ↔ kind.isTypeName = true
  constant : style.foreground = some Theme.number ↔ isConstant kind = true
  role : style.foreground = some Theme.pipeline ∧ style.bold = true ↔
    isRole kind = true ∧ signed = true
  keyword : style.foreground = some Theme.keyword ∧ style.bold = true ↔
    isStatementWord kind = true ∨ isRole kind = true ∧ signed = false
  name : ∀ text, kind = .name text →
    style.foreground = some (if called then Theme.function else Theme.foreground)

def keywordStyle (word : Token.Keyword) (signed : Bool) : Style :=
  if constants.contains word then
    .colored Theme.number
  else if roles.contains word && signed then
    (Style.colored Theme.pipeline).heavy
  else
    (Style.colored Theme.keyword).heavy

theorem keywordStyle_coloredAs (word : Token.Keyword) (signed called : Bool) :
    ColoredAs (.keyword word) signed called (keywordStyle word signed) := by
  cases word <;> cases signed <;> exact ⟨by decide, by decide, by decide, by decide, nofun⟩

theorem typeStyle_coloredAs (type : Token.TypeName) (signed called : Bool) :
    ColoredAs (.typeName type) signed called (.colored Theme.typeName) where
  typeName := iff_of_true rfl rfl
  constant := iff_of_false (by decide) Bool.false_ne_true
  role := iff_of_false (fun heavy => absurd heavy.1 (by decide)) nofun
  keyword := iff_of_false (fun heavy => absurd heavy.1 (by decide)) nofun
  name := nofun

theorem nameStyle_coloredAs (text : String) (signed called : Bool) :
    ColoredAs (.name text) signed called
      (if called then .colored Theme.function else .colored Theme.foreground) := by
  cases called with
  | false =>
      exact ⟨iff_of_false (by decide) nofun, iff_of_false (by decide) nofun,
        iff_of_false (by decide) nofun, iff_of_false (by decide) nofun, fun _ _ => rfl⟩
  | true =>
      exact ⟨iff_of_false (by decide) nofun, iff_of_false (by decide) nofun,
        iff_of_false (by decide) nofun, iff_of_false (by decide) nofun, fun _ _ => rfl⟩

/-! ### The tables -/

variable {run : List Char}

theorem wordStyle_keyword (word : Token.Keyword) (called signed : Bool) :
    wordStyle word.word.toList called signed = keywordStyle word signed := by
  cases word <;> cases signed <;> rfl

theorem wordStyle_typeName (type : Token.TypeName) (called signed : Bool) :
    wordStyle type.word.toList called signed = .colored Theme.typeName := by
  rcases type with _ | type
  · rfl
  · cases type <;> rfl

theorem contains_eq_false {α : Type} (table : List α) {spelled : α → String}
    (different : ∀ entry, (spelled entry).toList ≠ run) :
    (table.map spelled).contains (String.ofList run) = false := by
  rw [Bool.eq_false_iff]
  intro listed
  obtain ⟨entry, _, same⟩ := List.mem_map.mp (List.contains_iff_mem.mp listed)
  apply different entry
  rw [same, String.toList_ofList]

theorem wordStyle_name (notDigit : run.head?.any Character.isDigit = false)
    (notKeyword : ∀ word : Token.Keyword, word.word.toList ≠ run)
    (notType : ∀ type : Token.TypeName, type.word.toList ≠ run) (called signed : Bool) :
    wordStyle run called signed =
      if called then .colored Theme.function else .colored Theme.foreground := by
  have type : typeWords.contains (String.ofList run) = false :=
    contains_eq_false Token.TypeName.all notType
  have role : roleWords.contains (String.ofList run) = false :=
    contains_eq_false roles notKeyword
  have keyword : keywordWords.contains (String.ofList run) = false :=
    contains_eq_false ([.return, .if, .elif, .else, .while, .function, .var, .uniform, .input,
      .varying] : List Token.Keyword) notKeyword
  have constant : constantWords.contains (String.ofList run) = false :=
    contains_eq_false constants notKeyword
  unfold wordStyle
  dsimp only
  rw [notDigit, type, role, keyword, constant]
  rfl

theorem wordStyle_coloredAs (notDigit : run.head?.any Character.isDigit = false)
    (called signed : Bool) :
    ColoredAs (wordKind (String.ofList run)) signed called (wordStyle run called signed) := by
  have written : WordText run (wordKind (String.ofList run)) := wordKind_iff.mp rfl
  generalize wordKind (String.ofList run) = kind at written
  cases written with
  | keyword word =>
      rw [wordStyle_keyword]
      exact keywordStyle_coloredAs word signed called
  | typeName type =>
      rw [wordStyle_typeName]
      exact typeStyle_coloredAs type signed called
  | name notKeyword notType =>
      rw [wordStyle_name notDigit notKeyword notType]
      exact nameStyle_coloredAs _ signed called

theorem tokenize_word {first : Char} {others : List Char}
    (inside : ∀ character ∈ first :: others, Character.isWord character = true)
    (notDigit : Character.isDigit first = false) (notBlank : Character.isBlank first = false) :
    tokenize (String.ofList (first :: others)) =
      .ok [⟨wordKind (String.ofList (first :: others)), .origin⟩] := by
  generalize word : String.ofList (first :: others) = text
  have spelled : first :: others = text.toList := by rw [← word, String.toList_ofList]
  have ends : StopsAt Character.isWord [] := nofun
  have lexeme : Lexeme (first :: others) (wordKind text) [] :=
    .word (wordKind_iff.mp (by rw [word])) inside notDigit notBlank ends
  have legal : Piece.Legal [⟨first :: others, wordKind text, []⟩] := ⟨lexeme, nofun, trivial⟩
  have items := Lexer.items_of_pieces .origin (nofun : OnlyBlanks []) legal
  have whole : [] ++ Piece.text [⟨first :: others, wordKind text, []⟩] = text.toList :=
    (List.append_nil _).trans ((List.append_nil _).trans spelled)
  rw [whole] at items
  exact tokenize_of_items items

/-! ### Splitting a line -/

theorem wordSpans_text (word : List Char) (called signed : Bool) :
    (wordSpans word called signed).flatMap Span.text = word := by
  unfold wordSpans
  cases word with
  | nil => rfl
  | cons first others => exact List.append_nil _

theorem spansFrom_text (word : List Char) (signed : Bool) (rest : List Char) :
    (spansFrom word signed rest).flatMap Span.text = word ++ rest := by
  induction rest generalizing word signed with
  | nil => rw [spansFrom, wordSpans_text, List.append_nil]
  | cons character others ih =>
      rw [spansFrom]
      by_cases inWord : Character.isWord character = true
      · rw [if_pos inWord, ih, List.append_assoc]
        rfl
      · rw [if_neg inWord, List.flatMap_append, wordSpans_text, List.flatMap_cons, ih]
        rfl

theorem spansFrom_run {rest : List Char} (word : List Char) (signed : Bool)
    (inside : ∀ character ∈ run, Character.isWord character = true) :
    spansFrom word signed (run ++ rest) = spansFrom (word ++ run) signed rest := by
  induction run generalizing word with
  | nil => rw [List.nil_append, List.append_nil]
  | cons character others ih =>
      obtain ⟨first, later⟩ := List.forall_mem_cons.mp inside
      rw [List.cons_append, spansFrom, if_pos first, ih _ later, List.append_assoc]
      rfl

/-- Whether the sign of a pipeline value stands at the end of a text, behind its last word. -/
def signBehindWords (front : List Char) : Bool :=
  (front.reverse.takeWhile fun character => !Character.isWord character).contains '@'

theorem signBehindWords_word {character : Char} (front : List Char)
    (inWord : Character.isWord character = true) :
    signBehindWords (front ++ [character]) = false := by
  unfold signBehindWords
  rw [List.reverse_append, List.reverse_singleton, List.singleton_append,
    List.takeWhile_cons_of_neg (by rw [inWord]; exact Bool.false_ne_true)]
  rfl

theorem signBehindWords_other {character : Char} (front : List Char)
    (outside : Character.isWord character = false) :
    signBehindWords (front ++ [character]) = (character == '@' || signBehindWords front) := by
  unfold signBehindWords
  rw [List.reverse_append, List.reverse_singleton, List.singleton_append,
    List.takeWhile_cons_of_pos (by rw [outside]; rfl), List.contains_cons,
    BEq.comm]

/-- Splitting goes on behind any part of a line from what was read of a word and whether a sign
was seen. The sign counts only where no word was begun behind it. -/
theorem spans_front (front : List Char) :
    ∃ (earlier : List Span) (word : List Char) (signed : Bool),
      (∀ rest, spans (front ++ rest) = earlier ++ spansFrom word signed rest) ∧
        earlier.flatMap Span.text ++ word = front ∧
          (word.isEmpty && signed) = signBehindWords front ∧
            (StopsAt Character.isWord front.reverse → word = []) := by
  induction front using List.reverseRecOn with
  | nil => exact ⟨[], [], false, fun _ => rfl, rfl, rfl, fun _ => rfl⟩
  | append_singleton front character ih =>
      obtain ⟨earlier, word, signed, split, whole, sign, _⟩ := ih
      by_cases inWord : Character.isWord character = true
      · refine ⟨earlier, word ++ [character], signed, fun rest => ?_, ?_, ?_, fun ends => ?_⟩
        · rw [List.append_assoc, split, List.singleton_append, spansFrom, if_pos inWord]
        · rw [← List.append_assoc, whole]
        · rw [signBehindWords_word front inWord, List.isEmpty_eq_false_iff.mpr
            (List.concat_ne_nil _ _), Bool.false_and]
        · have outside := ends character (by rw [List.reverse_append]; rfl)
          rw [inWord] at outside
          cases outside
      · refine ⟨earlier ++ (wordSpans word (character == '(') signed ++
          [⟨[character], characterStyle character⟩]), [],
          character == '@' || (word.isEmpty && signed), fun rest => ?_, ?_, ?_, fun _ => rfl⟩
        · rw [List.append_assoc, split, List.singleton_append, spansFrom, if_neg inWord]
          simp only [List.append_assoc, List.singleton_append]
        · rw [List.flatMap_append, List.flatMap_append, wordSpans_text, ← List.append_assoc, whole,
            List.append_nil]
          rfl
        · rw [signBehindWords_other front (Bool.eq_false_iff.mpr inWord), sign]
          rfl

/-- A whole run of word characters has one span of its own, styled by what stands around it. -/
theorem spans_word {front word behind : List Char} (nonempty : word ≠ [])
    (inside : ∀ character ∈ word, Character.isWord character = true)
    (starts : StopsAt Character.isWord front.reverse) (ends : StopsAt Character.isWord behind) :
    ∃ earlier later, spans (front ++ (word ++ behind)) = earlier ++
        ⟨word, wordStyle word (behind.head? == some '(') (signBehindWords front)⟩ :: later ∧
      earlier.flatMap Span.text = front ∧ later.flatMap Span.text = behind := by
  obtain ⟨earlier, begun, signed, split, whole, sign, none⟩ := spans_front front
  cases none starts
  have signs : signed = signBehindWords front := sign
  rw [split, spansFrom_run [] signed inside, List.nil_append, signs]
  have own : ∀ called, wordSpans word called (signBehindWords front) =
      [⟨word, wordStyle word called (signBehindWords front)⟩] := by
    intro called
    unfold wordSpans
    rw [List.isEmpty_eq_false_iff.mpr nonempty]
    rfl
  rw [List.append_nil] at whole
  cases behind with
  | nil => exact ⟨earlier, [], by rw [spansFrom, own]; rfl, whole, rfl⟩
  | cons next later =>
      have outside := ends next rfl
      refine ⟨earlier, ⟨[next], characterStyle next⟩ ::
        spansFrom [] (next == '@' || (word.isEmpty && signBehindWords front)) later, ?_, whole, ?_⟩
      · rw [spansFrom, outside, if_neg Bool.false_ne_true, own]
        rfl
      · rw [List.flatMap_cons, spansFrom_text]
        rfl

/-- The spans of a line are the line. A whole run of word characters in it that begins with
neither a digit nor a blank is one token if it stands alone, and has a span of its own, in the
colour of that token. The sign counts that stands behind the run before. -/
theorem highlighting_agrees (line : List Char) :
    (spans line).flatMap Span.text = line ∧
    ∀ front first others behind, line = front ++ (first :: others ++ behind) →
      (∀ character ∈ first :: others, Character.isWord character = true) →
      StopsAt Character.isWord front.reverse → StopsAt Character.isWord behind →
      Character.isDigit first = false → Character.isBlank first = false →
      ∃ kind earlier style later,
        tokenize (String.ofList (first :: others)) = .ok [⟨kind, .origin⟩] ∧
          spans line = earlier ++ ⟨first :: others, style⟩ :: later ∧
            earlier.flatMap Span.text = front ∧ later.flatMap Span.text = behind ∧
              ColoredAs kind (signBehindWords front) (behind.head? == some '(') style := by
  refine ⟨spansFrom_text [] false line, ?_⟩
  rintro front first others behind rfl inside starts ends notDigit notBlank
  obtain ⟨earlier, later, split, before, after⟩ :=
    spans_word (List.cons_ne_nil first others) inside starts ends
  have digit : (first :: others).head?.any Character.isDigit = false := notDigit
  exact ⟨_, earlier, _, later, tokenize_word inside notDigit notBlank, split, before, after,
    wordStyle_coloredAs digit _ _⟩

def signedRole : List Char := "x = @ input".toList

theorem highlighting_agrees_of_signedRole :
    (signedRole = "x = @ ".toList ++ "input".toList ∧
      ∀ character ∈ "input".toList, Character.isWord character = true) ∧
    ∃ earlier style later, spans signedRole = earlier ++ ⟨"input".toList, style⟩ :: later ∧
      style.foreground = some Theme.pipeline ∧ style.bold = true := by
  have whole : signedRole = "x = @ ".toList ++ ('i' :: "nput".toList ++ []) := rfl
  have inside : ∀ character ∈ 'i' :: "nput".toList, Character.isWord character = true :=
    List.all_eq_true.mp rfl
  have starts : StopsAt Character.isWord "x = @ ".toList.reverse := by
    rintro character ⟨⟩
    rfl
  have alone : tokenize (String.ofList ('i' :: "nput".toList)) =
      .ok [⟨.keyword .input, .origin⟩] := by rfl
  obtain ⟨kind, earlier, style, later, token, split, _, _, colored⟩ :=
    (highlighting_agrees signedRole).2 _ _ _ _ whole inside starts nofun rfl rfl
  rw [alone] at token
  cases token
  exact ⟨⟨rfl, inside⟩, earlier, style, later, split, colored.role.mpr ⟨rfl, by decide⟩⟩

end Shading.Highlight
