import Shading.Proofs.Grammar.Displacement
import Shading.Proofs.Laziness
import Shading.Proofs.Lexer.Cut

/-!
Formatting a source.

Blanks are there to be chosen: where some stand between two lexemes, any others may stand,
and in front of the first lexeme and behind the last there may be any or none. Only the wide
blanks are left out, since words go on with them. Neither the tokens and the error of the
lexer nor the tree and the error of the parser change by it, but for their places.
-/

namespace Shading

namespace Lexical

/-! ### Other blanks -/

def NarrowBlanks (run : List Char) : Prop :=
  ∀ character ∈ run, Character.isBlank character = true ∧
    character.toNat < Character.firstWideWordCode

instance (run : List Char) : Decidable (NarrowBlanks run) := List.decidableBAll _ run

inductive Gap : List Char → List Char → Prop where
  | kept (blanks : List Char) : Gap blanks blanks
  | exchanged {old new : List Char} (stood : old ≠ []) (nonempty : new ≠ [])
      (narrow : NarrowBlanks new) : Gap old new

/-- The same lexemes with other blanks behind them. Where the text is closed, any blanks or
none may stand behind the last one. -/
inductive Reformatted (closed : Prop) : List Piece → List Piece → Prop where
  | nothing : Reformatted closed [] []
  | last {run : List Char} {kind : Token.Kind} {old new : List Char} (ends : closed)
      (narrow : NarrowBlanks new) : Reformatted closed [⟨run, kind, old⟩] [⟨run, kind, new⟩]
  | piece {run : List Char} {kind : Token.Kind} {old new : List Char}
      {others following : List Piece} (gap : Gap old new)
      (behind : Reformatted closed others following) :
      Reformatted closed (⟨run, kind, old⟩ :: others) (⟨run, kind, new⟩ :: following)

/-- A text with the same lexemes as one that was cut, and with other blanks; what is refused
is kept as it is. -/
def Cut.Formats {source : List Char} (cut : Cut source) (other : List Char) : Prop :=
  ∃ leading pieces, (leading = cut.leading ∨ NarrowBlanks leading) ∧
    Reformatted (cut.fault = none) cut.pieces pieces ∧
      other = leading ++ (Piece.text pieces ++ cut.rest)

/-! ### Lexemes between other blanks -/

variable {closed : Prop} {pieces others : List Piece} {rest old new : List Char}

theorem NarrowBlanks.blank (narrow : NarrowBlanks new) : OnlyBlanks new :=
  fun character among => (narrow character among).1

theorem narrow_separates {character : Char} (blank : Character.isBlank character = true)
    (narrow : character.toNat < Character.firstWideWordCode) : separates character = true := by
  have noOperator : Character.isOperator character = false := by
    apply Bool.eq_false_iff.mpr
    intro operator
    rw [operator_notBlank operator] at blank
    cases blank
  have noDigit : Character.isDigit character = false := by
    apply Bool.eq_false_iff.mpr
    intro digit
    rw [digit_notBlank digit] at blank
    cases blank
  have noPoint : (character == '.') = false := by
    apply beq_eq_false_iff_ne.mpr
    rintro rfl
    cases blank
  have noWord : Character.isWord character = false := by
    apply Bool.eq_false_iff.mpr
    intro word
    rcases word_codes word with low | wide
    · simp [Character.isBlank, Character.blankRanges] at blank
      omega
    · exact Nat.not_le_of_lt narrow wide
  unfold separates continuesNumeral
  rw [noOperator, noDigit, noPoint, noWord]
  rfl

theorem NarrowBlanks.separates (narrow : NarrowBlanks new) {character : Char}
    (head : new.head? = some character) : Lexical.separates character = true := by
  obtain ⟨blank, below⟩ := narrow character (List.mem_of_head? head)
  exact narrow_separates blank below

theorem Gap.blank (gap : Gap old new) (blank : OnlyBlanks old) : OnlyBlanks new := by
  cases gap with
  | kept => exact blank
  | exchanged _ _ narrow => exact narrow.blank

theorem Reformatted.head (same : Reformatted closed pieces others)
    (legal : Piece.LegalBefore rest pieces) :
    (Piece.text others ++ rest).head? = (Piece.text pieces ++ rest).head? := by
  cases same with
  | nothing => rfl
  | last ends narrow =>
      obtain ⟨first, tail, rfl, _⟩ := TextCursor.lexeme_of_grammar .origin legal.1
      rfl
  | piece gap behind =>
      obtain ⟨first, tail, rfl, _⟩ := TextCursor.lexeme_of_grammar .origin legal.1
      rfl

/-- The lexemes stay what they are, whatever blanks were chosen. -/
theorem Reformatted.legal (same : Reformatted closed pieces others) (ended : closed → rest = [])
    (legal : Piece.LegalBefore rest pieces) : Piece.LegalBefore rest others := by
  induction same with
  | nothing => trivial
  | last ends narrow =>
      obtain ⟨found, _, _⟩ := legal
      refine ⟨found.before ?_, narrow.blank, trivial⟩
      intro character head
      rw [ended ends] at head
      have kept : Piece.text [] = [] := rfl
      rw [kept, List.append_nil, List.append_nil] at head
      exact .inr (narrow.separates head)
  | @piece run kind old new others following gap behind ih =>
      obtain ⟨found, blank, legalOthers⟩ := legal
      refine ⟨found.before ?_, gap.blank blank, ih legalOthers⟩
      intro character head
      cases gap with
      | kept =>
          left
          rw [List.head?_append, ← behind.head legalOthers, ← List.head?_append]
          exact head
      | exchanged _ nonempty narrow =>
          obtain ⟨first, tail, rfl⟩ := List.exists_cons_of_ne_nil nonempty
          exact .inr (narrow.separates head)

theorem Reformatted.kinds (same : Reformatted closed pieces others) :
    others.map Piece.kind = pieces.map Piece.kind := by
  induction same with
  | nothing => rfl
  | last _ _ => rfl
  | piece _ _ ih => exact congrArg (List.cons _) ih

theorem Cut.Formats.cut {source other : List Char} {cut : Cut source}
    (formats : cut.Formats other) :
    ∃ copy : Cut other, copy.pieces.map Piece.kind = cut.pieces.map Piece.kind ∧
      copy.fault = cut.fault := by
  obtain ⟨leading, pieces, led, same, rfl⟩ := formats
  have blank : OnlyBlanks leading := by
    rcases led with rfl | narrow
    · exact cut.blank
    · exact narrow.blank
  have ended : cut.fault = none → cut.rest = [] := by
    intro complete
    have ending := cut.ending
    rw [complete] at ending
    exact ending.rest_of_none
  exact ⟨⟨leading, pieces, cut.rest, cut.fault, blank, same.legal ended cut.legal, rfl, cut.ending⟩,
    same.kinds, rfl⟩

end Lexical

/-! ### What a cut settles -/

variable {source other : String}

theorem items_of_cut (cut : Lexical.Cut source.toList) :
    (Source.items (Lexer.ofString source)).map (relocateItem fun _ => .origin) =
      Lexical.unplacedItems (cut.pieces.map Lexical.Piece.kind) cut.fault := by
  have items := Lexer.items_unplaced .origin cut.blank cut.legal cut.ending
  rw [cut.whole] at items
  exact items

theorem tokensUntilError_of_cut (cut : Lexical.Cut source.toList) :
    (tokensUntilError source).1.map Token.kind = cut.pieces.map Lexical.Piece.kind ∧
      (tokensUntilError source).2.map SyntaxError.fault = cut.fault := by
  have items := items_of_cut cut
  have moved : ∀ (tokens : List Token) (failure : Option SyntaxError),
      (tokens.map Except.ok ++ failure.toList.map Except.error : List TokenItem).map
          (relocateItem fun _ => .origin) =
        (tokens.map (Token.relocate fun _ => .origin)).map Except.ok ++
          (failure.map (SyntaxError.relocate fun _ => .origin)).toList.map Except.error := by
    intro tokens failure
    rw [List.map_append, List.map_map, List.map_map]
    cases failure <;> rw [List.map_map] <;> rfl
  rw [items_eq_tokensUntilError, moved] at items
  have parts := congrArg untilError items
  unfold Lexical.unplacedItems at parts
  rw [untilError_append, untilError_append] at parts
  obtain ⟨tokens, failure⟩ := Prod.mk.inj parts
  constructor
  · have kinds := congrArg (List.map Token.kind) tokens
    rw [List.map_map, List.map_map] at kinds
    exact kinds.trans (List.map_id _)
  · have faults := congrArg (Option.map SyntaxError.fault) failure
    rw [Option.map_map, Option.map_map] at faults
    exact faults.trans Option.map_id'

theorem parse_unplaced
    (same : (Source.items (Lexer.ofString other)).map (relocateItem fun _ => .origin) =
      (Source.items (Lexer.ofString source)).map (relocateItem fun _ => .origin)) :
    ((parse other).map Program.unplaced).mapError SyntaxError.fault =
      ((parse source).map Program.unplaced).mapError SyntaxError.fault := by
  have moved : ∀ source : String,
      ((parse source).map Program.unplaced).mapError SyntaxError.fault =
        (Trail.start.onto (Lookahead.ofSource []) ((Source.items (Lexer.ofString source)).map
          (relocateItem fun _ => .origin))).program.1.mapError SyntaxError.fault := by
    intro source
    rw [@Parser.program_relocate _ (Lookahead.ofSource []), Parser.parse_eq_items]
    cases (Trail.start.onto (Lookahead.ofSource [])
      (Source.items (Lexer.ofString source))).program.1 <;> rfl
  rw [moved other, moved source, same]

/-- Every source can be cut at its lexemes, up to its end or to where the lexer fails. Any
source that formats it has the same kinds of tokens, the same error of the lexer, and the
same tree or the same error of the parser, but for their places. -/
theorem formatting_keeps_meaning (source : String) :
    Nonempty (Lexical.Cut source.toList) ∧
    ∀ (cut : Lexical.Cut source.toList) (other : String), cut.Formats other.toList →
      (tokensUntilError source).1.map Token.kind = cut.pieces.map Lexical.Piece.kind ∧
        (tokensUntilError other).1.map Token.kind = (tokensUntilError source).1.map Token.kind ∧
        (tokensUntilError other).2.map SyntaxError.fault =
          (tokensUntilError source).2.map SyntaxError.fault ∧
        ((parse other).map Program.unplaced).mapError SyntaxError.fault =
          ((parse source).map Program.unplaced).mapError SyntaxError.fault := by
  refine ⟨Lexical.exists_cut (TextCursor.ofString source), fun cut other formats => ?_⟩
  obtain ⟨copy, kinds, fault⟩ := formats.cut
  obtain ⟨tokens, failure⟩ := tokensUntilError_of_cut cut
  obtain ⟨copyTokens, copyFailure⟩ := tokensUntilError_of_cut copy
  refine ⟨tokens, ?_, ?_, parse_unplaced ?_⟩
  · rw [tokens, copyTokens, kinds]
  · rw [failure, copyFailure, fault]
  · rw [items_of_cut copy, items_of_cut cut, kinds, fault]

def truthBeforeVersion : Lexical.Cut "true; 1.2.3".toList where
  leading := []
  pieces := [⟨['t', 'r', 'u', 'e'], .keyword .true, []⟩, ⟨[';'], .mark .semicolon, [' ']⟩]
  rest := ['1', '.', '2', '.', '3']
  fault := some (.unexpectedSymbol '.')
  blank := by decide
  legal :=
    ⟨.word (.keyword .true) (List.all_eq_true.mp rfl) (by decide) (by decide)
        (by rintro character ⟨⟩; decide), by decide, .mark .semicolon, by decide, trivial⟩
  whole := rfl
  ending := .refused (@Lexical.Refused.point '1' [] ['2'] ['3'] (List.all_eq_true.mp rfl)
    (List.all_eq_true.mp rfl))

/-- A line before the source and another line before the numeral change only where the error
stands. -/
theorem formatting_keeps_meaning_of_truthBeforeVersion :
    truthBeforeVersion.Formats "\n true;\t\n1.2.3".toList ∧
      (tokensUntilError "\n true;\t\n1.2.3").1.map Token.kind =
        [.keyword .true, .mark .semicolon] ∧
      ((parse "\n true;\t\n1.2.3").map Program.unplaced).mapError SyntaxError.fault =
        .error (.unexpectedSymbol '.') := by
  have formats : truthBeforeVersion.Formats "\n true;\t\n1.2.3".toList := by
    have gap : Lexical.Gap [' '] ['\t', '\n'] :=
      .exchanged (by decide) (by decide) (by decide)
    exact ⟨['\n', ' '], _, .inr (by decide), .piece (.kept []) (.piece gap .nothing), rfl⟩
  obtain ⟨lexemes, tokens, _, parsed⟩ :=
    (formatting_keeps_meaning "true; 1.2.3").2 truthBeforeVersion "\n true;\t\n1.2.3" formats
  exact ⟨formats, tokens.trans lexemes, parsed.trans rfl⟩

end Shading
