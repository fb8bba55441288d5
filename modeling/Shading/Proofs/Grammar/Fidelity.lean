import Shading.Proofs.Grammar.Recognition

/-!
Parsing loses, invents and reorders nothing.

The tokens of a parsed program, semicolons apart, are exactly the tokens its
tree is spelled with, and so are the tokens that reading one expression takes
from any source.
-/

namespace Shading

namespace Grammar

theorem OnlySeparators.takes {input : List TokenItem} (separators : OnlySeparators input) :
    Takes input [] [] := by
  induction input with
  | nil => exact .nothing
  | cons item others ih =>
      obtain ⟨⟨place, rfl⟩, following⟩ := List.forall_mem_cons.mp separators
      exact (ih following).separator

theorem ReadsProgram.takes {input : List TokenItem} {trees : List Expression}
    (derived : ReadsProgram input trees) :
    Takes input ((Program.mk trees).spelling .tight) [] := by
  unfold Program.spelling
  rw [sequence_tight]
  induction derived with
  | finish separators => exact separators.takes
  | expression following _ _ ih => exact following.takes.append ih

end Grammar

/-- The tokens of a program, semicolons apart, are those its tree is spelled with;
and reading one expression from any source takes, semicolons apart, exactly the
tokens that expression is spelled with. -/
theorem parse_takes_spelling :
    (∀ {tokens : List Token} {program : Program}, parseTokens tokens = .ok program →
      significant tokens = program.spelling .tight) ∧
    (∀ {σ : Type} [Source σ TokenItem] [LawfulSource σ] {parser after : Parser σ}
        {bound : Precedence} {tree : Expression},
      parser.expression bound = (.ok (some tree), after) →
        ∃ consumed : List Token, parser.pending = consumed.map .ok ++ after.pending ∧
          significant consumed = tree.spelling .tight) := by
  constructor
  · intro tokens program parsed
    obtain ⟨taken, split, spelled⟩ := (parseTokens_iff.mp parsed).takes
    rw [List.append_nil] at split
    have same : tokens = taken :=
      (List.map_inj_right fun _ _ => Except.ok.inj).mp split
    rw [same, spelled]
  · intro σ _ _ parser after bound tree parsed
    exact (Parser.reads_of_expression parsed).takes

/-- The tokens of `; f(true, !g().x) + false ;`, each at the origin. -/
def callTokens : List Token :=
  [.mark .semicolon, .name "f", .mark .leftParenthesis, .keyword .true, .mark .comma,
    .boolean .not, .name "g", .mark .leftParenthesis, .mark .rightParenthesis, .mark .dot,
    .name "x", .mark .rightParenthesis, .arithmetic .add, .keyword .false,
    .mark .semicolon].map fun kind => ⟨kind, .origin⟩

def callTree : Expression :=
  .binary (.arithmetic .add)
    (.call "f"
      [.truth true .origin,
        .unary (.boolean .not)
          (.binary .member (.call "g" [] .origin) (.memberName "x" .origin) .origin) .origin]
      .origin)
    (.truth false .origin) .origin

def callParser : Parser (List TokenItem) :=
  .ofSource (callTokens.map .ok ++ [.error ⟨.origin, .unexpectedEnd⟩])

/-- In front of an error, too, only the tokens of the tree are taken. -/
theorem parse_takes_spelling_of_call :
    (parseTokens callTokens = .ok ⟨[callTree]⟩ ∧
      significant callTokens = (Program.mk [callTree]).spelling .tight) ∧
    (callParser.expression .lowest).1 = .ok (some callTree) ∧
      ∃ consumed : List Token,
        callParser.pending =
          consumed.map .ok ++ (callParser.expression .lowest).2.pending ∧
        significant consumed = callTree.spelling .tight :=
  ⟨⟨rfl, parse_takes_spelling.1 rfl⟩, rfl,
    parse_takes_spelling.2 (show callParser.expression .lowest =
      (.ok (some callTree), (callParser.expression .lowest).2) from rfl)⟩

end Shading
