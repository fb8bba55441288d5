import Shading.Proofs.Lexer.Lexeme

/-!
The lexer reads the lexemes of the lexical grammar.

A lexeme is found by its first character, so the classes of first characters come
first: of marks, operators, numerals and words, each begins with characters that
the others do not begin with, and none begins with a blank.
-/

namespace Shading

namespace Lexical

/-! ### First characters -/

theorem symbol_of_mark {character : Char} {sign : Token.Punctuation}
    (found : Token.Punctuation.ofChar? character = some sign) : character = sign.symbol := by
  unfold Token.Punctuation.ofChar? at found
  split at found <;> cases found <;> rfl

theorem mark_notBlank (sign : Token.Punctuation) : Character.isBlank sign.symbol = false := by
  cases sign <;> decide

theorem digit_isWord {character : Char} (digit : Character.isDigit character = true) :
    Character.isWord character = true := by
  unfold Character.isWord
  rw [digit, Bool.or_true]
  rfl

/-- The codes of word characters reach from the digits to the letters, and from the wide
characters on. -/
theorem word_codes {character : Char} (word : Character.isWord character = true) :
    48 ≤ character.toNat ∧ character.toNat ≤ 122 ∨
      Character.firstWideWordCode ≤ character.toNat := by
  simp only [Character.isWord, Character.isLetter, Character.isDigit, Bool.or_eq_true,
    Bool.and_eq_true, decide_eq_true_eq, beq_iff_eq, Char.le_def, UInt32.le_iff_toNat_le] at word
  rcases word with (((small | capital) | digit) | rfl) | wide
  · exact .inl ⟨Nat.le_trans (by decide) small.1, Nat.le_trans small.2 (by decide)⟩
  · exact .inl ⟨Nat.le_trans (by decide) capital.1, Nat.le_trans capital.2 (by decide)⟩
  · exact .inl ⟨Nat.le_trans (by decide) digit.1, Nat.le_trans digit.2 (by decide)⟩
  · exact .inl (by decide)
  · exact .inr wide

theorem digit_notBlank {character : Char} (digit : Character.isDigit character = true) :
    Character.isBlank character = false := by
  have low : 48 ≤ character.toNat := by
    have bound : '0' ≤ character := by
      simp [Character.isDigit] at digit
      exact digit.1
    exact bound
  have high : character.toNat ≤ 57 := by
    have bound : character ≤ '9' := by
      simp [Character.isDigit] at digit
      exact digit.2
    exact bound
  simp [Character.isBlank, Character.blankRanges]
  omega

theorem word_notOperator {character : Char} (word : Character.isWord character = true) :
    Character.isOperator character = false := by
  have outside :
      Character.operatorCharacters.all (fun other => !Character.isWord other) = true := by
    decide
  apply Bool.eq_false_iff.mpr
  intro operator
  have listed : character ∈ Character.operatorCharacters := List.contains_iff_mem.mp operator
  have notWord := List.all_eq_true.mp outside character listed
  rw [word] at notWord
  cases notWord

theorem word_noMark {character : Char} (word : Character.isWord character = true) :
    Token.Punctuation.ofChar? character = none := by
  have outside : ∀ sign : Token.Punctuation, Character.isWord sign.symbol = false := by
    intro sign
    cases sign <;> decide
  cases found : Token.Punctuation.ofChar? character with
  | none => rfl
  | some sign =>
      rw [symbol_of_mark found, outside sign] at word
      cases word

theorem operatorText_first {run : List Char} {kind : Token.Kind}
    (written : OperatorText run kind) :
    ∃ first others, run = first :: others ∧ Character.isBlank first = false ∧
      Token.Punctuation.ofChar? first = none := by
  cases written with
  | assign => exact ⟨'=', [], rfl, by decide, rfl⟩
  | boolean operator => cases operator <;> exact ⟨_, _, rfl, by decide, rfl⟩
  | arithmetic operator => cases operator <;> exact ⟨_, _, rfl, by decide, rfl⟩
  | compound operator _ => cases operator <;> exact ⟨_, _, rfl, by decide, rfl⟩

theorem run_nonempty {accepts : Char → Bool} {first : Char} {others run rest : List Char}
    (ends : StopsAt accepts rest) (whole : first :: others = run ++ rest)
    (begins : accepts first = true) : run ≠ [] := by
  rintro rfl
  have outside : accepts first = false := by
    apply ends
    rw [← List.nil_append rest, ← whole]
    rfl
  rw [outside] at begins
  cases begins

theorem StopsAt.digit {rest : List Char} (ends : StopsAt continuesNumeral rest) :
    StopsAt Character.isDigit rest := by
  intro character head
  have neither := ends character head
  unfold continuesNumeral at neither
  rw [Bool.or_eq_false_iff] at neither
  exact neither.1

theorem StopsAt.noPoint {later : List Char} :
    ¬ StopsAt continuesNumeral ('.' :: later) := by
  intro ends
  have point := ends '.' rfl
  cases point

theorem stopsAt_numeral {rest : List Char} (ends : StopsAt Character.isDigit rest)
    (noPoint : ∀ later, rest ≠ '.' :: later) : StopsAt continuesNumeral rest := by
  intro character head
  unfold continuesNumeral
  rw [ends character head, Bool.false_or]
  cases rest with
  | nil => cases head
  | cons next later =>
      cases head
      have different : character ≠ '.' := by
        rintro rfl
        exact noPoint later rfl
      simpa using different

end Lexical

namespace TextCursor

open Lexical

variable {cursor behind : TextCursor} {run digits fraction rest : List Char} {kind : Token.Kind}

/-! ### Operators -/

theorem operatorRun_of_text (place : Location) (written : OperatorText run kind)
    (ends : StopsAt Character.isOperator rest) :
    (TextCursor.mk (run ++ rest) place).operatorRun = (.ok kind, ⟨rest, place.afterAll run⟩) := by
  have inside := operatorText_inside written
  have known : operatorKind? run = some kind := (operatorKind?_iff inside).mpr written
  unfold operatorRun
  rw [takeWhile_run place inside ends]
  dsimp only
  rw [known]

theorem text_of_operatorRun (read : cursor.operatorRun = (.ok kind, behind)) :
    ∃ run, OperatorText run kind ∧ StopsAt Character.isOperator behind.rest ∧
      cursor.rest = run ++ behind.rest ∧ behind.location = cursor.location.afterAll run := by
  unfold operatorRun at read
  cases taken : cursor.takeWhile Character.isOperator with
  | mk run stopped =>
  obtain ⟨whole, inside, ends, moved⟩ := takeWhile_spec taken
  rw [taken] at read
  dsimp only at read
  split at read
  · rename_i found known
    cases read
    exact ⟨run, (operatorKind?_iff inside).mp known, ends, whole, moved⟩
  · cases read

/-! ### Numerals -/

theorem numeral_whole (place : Location)
    (inside : ∀ character ∈ digits, Character.isDigit character = true)
    (ends : StopsAt continuesNumeral rest) :
    (TextCursor.mk (digits ++ rest) place).numeral =
      (.ok (Number.numeralValue digits []), ⟨rest, place.afterAll digits⟩) := by
  unfold numeral
  rw [takeWhile_run place inside ends.digit]
  dsimp only
  split
  · exact absurd ends StopsAt.noPoint
  · rfl

theorem numeral_pointed (place : Location)
    (inside : ∀ character ∈ digits, Character.isDigit character = true)
    (fractionInside : ∀ character ∈ fraction, Character.isDigit character = true)
    (ends : StopsAt continuesNumeral rest) :
    (TextCursor.mk (digits ++ '.' :: (fraction ++ rest)) place).numeral =
      (.ok (Number.numeralValue digits fraction),
        ⟨rest, place.afterAll (digits ++ '.' :: fraction)⟩) := by
  have pointed : StopsAt Character.isDigit ('.' :: (fraction ++ rest)) := by
    rintro character ⟨⟩
    rfl
  have moved : place.afterAll (digits ++ '.' :: fraction) =
      ((place.afterAll digits).after '.').afterAll fraction := by
    unfold Location.afterAll
    rw [List.foldl_append, List.foldl_cons]
  unfold numeral
  rw [takeWhile_run place inside pointed]
  dsimp only [next]
  rw [takeWhile_run _ fractionInside ends.digit, moved]
  dsimp only
  split
  · split
    · exact absurd ends StopsAt.noPoint
    · rfl
  · rename_i noPoint
    exact absurd rfl (noPoint _)

theorem lexeme_of_numeral {first : Char} {others : List Char} {value : Float}
    (begun : cursor.rest = first :: others) (digit : Character.isDigit first = true)
    (read : cursor.numeral = (.ok value, behind)) :
    ∃ run, Lexeme run (.number value) behind.rest ∧ cursor.rest = run ++ behind.rest ∧
      behind.location = cursor.location.afterAll run := by
  unfold numeral at read
  cases taken : cursor.takeWhile Character.isDigit with
  | mk digits middle =>
  obtain ⟨whole, inside, ends, moved⟩ := takeWhile_spec taken
  have nonempty := run_nonempty ends (begun.symm.trans whole) digit
  rw [taken] at read
  dsimp only at read
  split at read
  · rename_i later pointed
    cases fractionTaken : middle.next.2.takeWhile Character.isDigit with
    | mk fraction stopped =>
    obtain ⟨fractionWhole, fractionInside, fractionEnds, fractionMoved⟩ :=
      takeWhile_spec fractionTaken
    have stepped : middle.next.2 = ⟨later, middle.location.after '.'⟩ := by
      unfold next
      rw [pointed]
    rw [fractionTaken] at read
    dsimp only at read
    split at read
    · cases read
    · rename_i noPoint
      cases read
      rw [stepped] at fractionWhole fractionMoved
      dsimp only at fractionWhole fractionMoved
      have stops := stopsAt_numeral fractionEnds noPoint
      have denoted := (Number.denotes_iff inside fractionInside).mpr rfl
      refine ⟨_, .pointed nonempty inside fractionInside denoted stops, ?_, ?_⟩
      · rw [whole, pointed, fractionWhole, List.append_assoc, List.cons_append]
      · rw [fractionMoved, moved]
        unfold Location.afterAll
        rw [List.foldl_append, List.foldl_cons]
  · rename_i noPoint
    cases read
    have stops := stopsAt_numeral ends noPoint
    have denoted := (Number.denotes_iff inside (List.forall_mem_nil _)).mpr rfl
    exact ⟨digits, .whole nonempty inside denoted stops, whole, moved⟩

/-! ### Words -/

theorem word_of_text (place : Location) (written : WordText run kind)
    (inside : ∀ character ∈ run, Character.isWord character = true)
    (ends : StopsAt Character.isWord rest) :
    (TextCursor.mk (run ++ rest) place).word = (kind, ⟨rest, place.afterAll run⟩) := by
  unfold word
  rw [takeWhile_run place inside ends]
  dsimp only
  rw [wordKind_iff.mpr written]

theorem text_of_word (read : cursor.word = (kind, behind)) :
    ∃ run, WordText run kind ∧ (∀ character ∈ run, Character.isWord character = true) ∧
      StopsAt Character.isWord behind.rest ∧ cursor.rest = run ++ behind.rest ∧
        behind.location = cursor.location.afterAll run := by
  unfold word at read
  cases taken : cursor.takeWhile Character.isWord with
  | mk run stopped =>
  obtain ⟨whole, inside, ends, moved⟩ := takeWhile_spec taken
  rw [taken] at read
  obtain ⟨known, rfl⟩ := Prod.mk.inj read
  exact ⟨run, wordKind_iff.mp known, inside, ends, whole, moved⟩

/-! ### Lexemes -/

/-- A lexeme is read whole, and reading stops right behind it. -/
theorem lexeme_of_grammar (place : Location) (found : Lexeme run kind rest) :
    ∃ first others, run = first :: others ∧ Character.isBlank first = false ∧
      (TextCursor.mk (run ++ rest) place).lexeme first =
        (.ok kind, ⟨rest, place.afterAll run⟩) := by
  cases found with
  | mark sign =>
      refine ⟨sign.symbol, [], rfl, mark_notBlank sign, ?_⟩
      unfold lexeme
      rw [Token.Punctuation.ofChar?_symbol]
      rfl
  | operator written ends =>
      obtain ⟨first, others, rfl, notBlank, noMark⟩ := operatorText_first written
      have operator : Character.isOperator first = true :=
        operatorText_inside written first List.mem_cons_self
      refine ⟨first, others, rfl, notBlank, ?_⟩
      unfold lexeme
      rw [noMark]
      dsimp only
      rw [if_pos operator, operatorRun_of_text place written ends]
      rfl
  | whole nonempty inside denoted ends =>
      -- A digit is a word character, but digits are asked for first.
      rw [(Number.denotes_iff inside (List.forall_mem_nil _)).mp denoted]
      obtain ⟨first, others, rfl⟩ := List.exists_cons_of_ne_nil nonempty
      have digit : Character.isDigit first = true := inside first List.mem_cons_self
      have word := digit_isWord digit
      refine ⟨first, others, rfl, digit_notBlank digit, ?_⟩
      unfold lexeme
      rw [word_noMark word]
      dsimp only
      rw [word_notOperator word, if_neg Bool.false_ne_true, if_pos digit,
        numeral_whole place inside ends]
      rfl
  | @pointed digits fraction _ value nonempty inside fractionInside denoted ends =>
      rw [(Number.denotes_iff inside fractionInside).mp denoted]
      have split : (digits ++ '.' :: fraction) ++ rest = digits ++ '.' :: (fraction ++ rest) := by
        rw [List.append_assoc, List.cons_append]
      have numeral := numeral_pointed place inside fractionInside ends
      rw [← split] at numeral
      obtain ⟨first, others, rfl⟩ := List.exists_cons_of_ne_nil nonempty
      have digit : Character.isDigit first = true := inside first List.mem_cons_self
      have word := digit_isWord digit
      refine ⟨first, others ++ '.' :: fraction, rfl, digit_notBlank digit, ?_⟩
      unfold lexeme
      rw [word_noMark word]
      dsimp only
      rw [word_notOperator word, if_neg Bool.false_ne_true, if_pos digit, numeral]
      rfl
  | @word first others _ _ written inside notDigit notBlank ends =>
      have word : Character.isWord first = true := inside first List.mem_cons_self
      refine ⟨first, others, rfl, notBlank, ?_⟩
      unfold lexeme
      rw [word_noMark word]
      dsimp only
      rw [word_notOperator word, if_neg Bool.false_ne_true, notDigit,
        if_neg Bool.false_ne_true, if_pos word, word_of_text place written inside ends]

/-- Whatever is read as a lexeme is one. -/
theorem grammar_of_lexeme {first : Char} {others : List Char}
    (begun : cursor.rest = first :: others) (notBlank : Character.isBlank first = false)
    (read : cursor.lexeme first = (.ok kind, behind)) :
    ∃ run, Lexeme run kind behind.rest ∧ cursor.rest = run ++ behind.rest ∧
      behind.location = cursor.location.afterAll run := by
  unfold lexeme at read
  split at read
  · rename_i sign found
    cases read
    refine ⟨[first], ?_, ?_, ?_⟩
    · rw [symbol_of_mark found]
      exact .mark sign
    · unfold next
      rw [begun]
      rfl
    · unfold next
      rw [begun]
      rfl
  · split at read
    · cases ran : cursor.operatorRun with
      | mk result stopped =>
      rw [ran] at read
      cases result with
      | error fault => cases read
      | ok found =>
          cases read
          obtain ⟨run, written, ends, whole, moved⟩ := text_of_operatorRun ran
          exact ⟨run, .operator written ends, whole, moved⟩
    · split at read
      · rename_i digit
        cases ran : cursor.numeral with
        | mk result stopped =>
        rw [ran] at read
        cases result with
        | error place => cases read
        | ok value =>
            cases read
            exact lexeme_of_numeral begun digit ran
      · rename_i notDigit
        split at read
        · rename_i word
          cases ran : cursor.word with
          | mk found stopped =>
          rw [ran] at read
          cases read
          obtain ⟨run, written, inside, ends, whole, moved⟩ := text_of_word ran
          have nonempty := run_nonempty ends (begun.symm.trans whole) word
          obtain ⟨head, tail, rfl⟩ := List.exists_cons_of_ne_nil nonempty
          obtain ⟨rfl, _⟩ := List.cons.inj (begun.symm.trans whole)
          have noDigit := Bool.eq_false_iff.mpr notDigit
          exact ⟨_, .word written inside noDigit notBlank ends, whole, moved⟩
        · cases read

end TextCursor

end Shading
