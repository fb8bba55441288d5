import Shading.Number
import Shading.Source
import Shading.SyntaxError
import Shading.Text.Cursor

/-!
From text to tokens.

A lexeme is found by its first character: a punctuation mark stands alone, an
operator character begins a run that must be one operator as a whole, a digit
begins a numeral, and any other word character begins a word. Tokens are made
one at a time, and the first error ends the sequence.
-/

namespace Shading

/-! ### What a lexeme means -/

/-- The operator that a whole run of operator characters is, if it is one. A run
of several characters that ends in an equals sign assigns through the operator
of its first character. -/
def operatorKind? (run : List Char) : Option Token.Kind :=
  match run with
  | ['='] => some .assign
  | ['=', '='] => some (.boolean .equal)
  | ['!', '='] => some (.boolean .notEqual)
  | ['>'] => some (.boolean .greater)
  | ['<'] => some (.boolean .less)
  | ['>', '='] => some (.boolean .greaterOrEqual)
  | ['<', '='] => some (.boolean .lessOrEqual)
  | ['&', '&'] => some (.boolean .and)
  | ['|', '|'] => some (.boolean .or)
  | ['!'] => some (.boolean .not)
  | [] => none
  | [symbol] => (ArithmeticOperator.ofChar? symbol).map .arithmetic
  | symbol :: others =>
    if others.getLast? = some '=' then
      (ArithmeticOperator.ofChar? symbol).map .compoundAssign
    else
      none

def wordKind (word : String) : Token.Kind :=
  match Token.Keyword.all.find? (·.word == word) with
  | some keyword => .keyword keyword
  | none =>
    match Token.TypeName.all.find? (·.word == word) with
    | some type => .typeName type
    | none => .name word

/-! ### Finding a lexeme -/

namespace TextCursor

/-- A run of operator characters; a run that is no operator is read all the same. -/
def operatorRun (cursor : TextCursor) : Except Fault Token.Kind × TextCursor :=
  let (run, behind) := cursor.takeWhile Character.isOperator
  match operatorKind? run with
  | some kind => (.ok kind, behind)
  | none => (.error (.invalidOperatorRun (String.ofList run)), behind)

/-- A numeral: digits, and perhaps a point and more digits. A second point is not
read, and is not allowed to follow. -/
def numeral (cursor : TextCursor) : Except Location Float × TextCursor :=
  let (whole, behindWhole) := cursor.takeWhile Character.isDigit
  match behindWhole.rest with
  | '.' :: _ =>
    let (fraction, behind) := behindWhole.next.2.takeWhile Character.isDigit
    match behind.rest with
    | '.' :: _ => (.error behind.location, behind)
    | _ => (.ok (Number.numeralValue whole fraction), behind)
  | _ => (.ok (Number.numeralValue whole []), behindWhole)

def word (cursor : TextCursor) : Token.Kind × TextCursor :=
  let (run, behind) := cursor.takeWhile Character.isWord
  (wordKind (String.ofList run), behind)

/-- The lexeme that begins at a cursor with this first character. An error is
placed at the beginning of the lexeme, but a second point at itself. -/
def lexeme (cursor : TextCursor) (first : Char) : Except SyntaxError Token.Kind × TextCursor :=
  match Token.Punctuation.ofChar? first with
  | some mark => (.ok (.mark mark), cursor.next.2)
  | none =>
    if Character.isOperator first then
      let (kind, behind) := cursor.operatorRun
      (kind.mapError fun fault => ⟨cursor.location, fault⟩, behind)
    else if Character.isDigit first then
      let (value, behind) := cursor.numeral
      ((value.map .number).mapError fun location => ⟨location, .unexpectedSymbol '.'⟩, behind)
    else if Character.isWord first then
      let (kind, behind) := cursor.word
      (.ok kind, behind)
    else
      (.error ⟨cursor.location, .unexpectedSymbol first⟩, cursor)

def token (cursor : TextCursor) : Except SyntaxError (Option Token) × TextCursor :=
  let start := (cursor.takeWhile Character.isBlank).2
  match start.rest with
  | [] => (.ok none, start)
  | first :: _ =>
    let (kind, behind) := start.lexeme first
    (kind.map fun kind => some ⟨kind, start.location⟩, behind)

end TextCursor

/-! ### A lexer -/

/-- A text being read, and whether an error was given out. -/
structure Lexer where
  text : TextCursor
  failed : Bool

namespace Lexer

def ofString (source : String) : Lexer := ⟨TextCursor.ofString source, false⟩

def attempt (lexer : Lexer) : Except SyntaxError (Option Token) × Lexer :=
  let (result, text) := lexer.text.token
  (result, { lexer with text := text })

/-- The next token or error; after an error there is nothing more. -/
def next (lexer : Lexer) : Option (Except SyntaxError Token) × Lexer :=
  if lexer.failed then
    (none, lexer)
  else
    match lexer.attempt with
    | (.ok none, lexer) => (none, lexer)
    | (.ok (some token), lexer) => (some (.ok token), lexer)
    | (.error failure, lexer) => (some (.error failure), { lexer with failed := true })

instance : Source Lexer (Except SyntaxError Token) where
  pull := next
  size lexer := if lexer.failed then 0 else lexer.text.rest.length + 1

def tokenize (lexer : Lexer) : Except SyntaxError (List Token) × Lexer :=
  let (items, lexer) := Source.drain lexer
  (allOrError items, lexer)

end Lexer

/-- The tokens of a text before its first lexical error, and that error. -/
def tokensUntilError (source : String) : List Token × Option SyntaxError :=
  untilError (Source.items (Lexer.ofString source))

def tokenize (source : String) : Except SyntaxError (List Token) :=
  ((Lexer.ofString source).tokenize).1

end Shading
