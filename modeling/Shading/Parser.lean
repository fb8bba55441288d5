import Shading.Grammar.Expression
import Shading.Lexer

/-!
Parsing a source of tokens.

A parser is a token source with one token of lookahead. It can be asked for one
expression after the other, also after an error, or for the whole rest as a
program. Tokens are pulled only when they are looked at or taken.
-/

namespace Shading

namespace Parser

variable {σ : Type} [Source σ TokenItem]

def ofSource (source : σ) : Parser σ := Lookahead.ofSource source

def expression (parser : Parser σ) (bound : Precedence) :
    Except SyntaxError (Option Expression) × Parser σ :=
  (Grammar.expression (parser.remaining + 1) bound).run parser

def noting (note : Expression → σ → σ) (expression : Expression) (parser : Parser σ) : Parser σ :=
  { parser with source := note expression parser.source }

/-- Read at most `limit` expressions of a program. A closing brace that closes
nothing is an error. Each expression that is complete is noted in the source. -/
def programWithin (note : Expression → σ → σ) :
    Nat → Parser σ → Except SyntaxError (List Expression) × Parser σ
  | 0, parser => (.ok [], parser)
  | limit + 1, parser =>
    match parser.expression .lowest with
    | (.error failure, parser) => (.error failure, parser)
    | (.ok none, parser) => (.ok [], parser)
    | (.ok (some (.void location)), parser) =>
      (.error ⟨location, .unexpectedToken (.mark .rightBrace)⟩, parser)
    | (.ok (some expression), parser) =>
      let (others, parser) := programWithin note limit (parser.noting note expression)
      (others.map (expression :: ·), parser)

def programNoting (note : Expression → σ → σ) (parser : Parser σ) :
    Except SyntaxError Program × Parser σ :=
  let (expressions, parser) := programWithin note (parser.remaining + 1) parser
  (expressions.map Program.mk, parser)

def silent (_ : Expression) (source : σ) : σ := source

def program (parser : Parser σ) : Except SyntaxError Program × Parser σ :=
  parser.programNoting silent

end Parser

/-- The program that a text is, or its first error. The text is read only as far
as parsing needs it. -/
def parse (source : String) : Except SyntaxError Program :=
  (Parser.ofSource (Lexer.ofString source)).program.1

def parseTokens (tokens : List Token) : Except SyntaxError Program :=
  (Parser.ofSource (tokens.map Except.ok : List TokenItem)).program.1

end Shading
