import Shading.Parser

/-!
Records of what the lexer, the parser and the command do.

A record of the lexer is written when its token is pulled, and a record of the
parser when its expression is complete. As the parser pulls tokens on demand,
records of both kinds are mixed.
-/

namespace Shading.Log

inductive Level where
  | error
  | warn
  | info
  | debug
  | trace
deriving DecidableEq, Repr, Inhabited

namespace Level

def all : List Level := [error, warn, info, debug, trace]

def rank : Level → Nat
  | error => 1
  | warn => 2
  | info => 3
  | debug => 4
  | trace => 5

def name : Level → String
  | error => "ERROR"
  | warn => "WARN"
  | info => "INFO"
  | debug => "DEBUG"
  | trace => "TRACE"

def tag : Level → String
  | error => "[ERROR] "
  | warn => "[WARN]  "
  | info => "[INFO]  "
  | debug => "[DEBUG] "
  | trace => "[TRACE] "

/-- The least important level that is written when asked to be verbose this often. -/
def ofVerbosity : Nat → Level
  | 0 => warn
  | 1 => debug
  | _ => trace

def passes (level threshold : Level) : Bool := level.rank ≤ threshold.rank

end Level

inductive Part where
  | command
  | lexer
  | parser
deriving DecidableEq, Repr

def Part.name : Part → String
  | command => "vixie"
  | lexer => "vixie::parser::lexer"
  | parser => "vixie::parser::parse"

structure Record where
  level : Level
  part : Part
  text : String
deriving DecidableEq, Repr

def Record.line (record : Record) : String :=
  record.level.tag ++ "[" ++ record.part.name ++ "] " ++ record.text

def written (threshold : Level) (records : List Record) : List String :=
  (records.filter fun record => record.level.passes threshold).map Record.line

/-! ### Records of lexing and parsing -/

def lexed (token : Token) : Record :=
  ⟨.trace, .lexer, "lexed " ++ token.kind.text ++ " at " ++ token.location.raw⟩

def completed (expression : Expression) : Record :=
  ⟨.debug, .parser,
    "parsed top-level " ++ expression.kindName ++ " at " ++ expression.location.raw⟩

def ofItem? : TokenItem → Option Record
  | .ok token => some (lexed token)
  | .error _ => none

/-- A source of tokens, and the records that were written so far. -/
structure Journal (σ : Type) where
  source : σ
  records : List Record

namespace Journal

variable {σ : Type}

def ofSource (source : σ) : Journal σ := ⟨source, []⟩

def write (journal : Journal σ) (record : Option Record) : Journal σ :=
  { journal with records := journal.records ++ record.toList }

/-- A record is written where its item is pulled. -/
instance [Source σ TokenItem] : Source (Journal σ) TokenItem where
  pull journal :=
    let (item, source) := Source.pull journal.source
    (item, { journal with source := source }.write (item.bind ofItem?))
  size journal := Source.size journal.source

def complete (expression : Expression) (journal : Journal σ) : Journal σ :=
  journal.write (some (completed expression))

end Journal

def lexing (source : String) : List TokenItem × List Record :=
  let (items, journal) := Source.drain (Journal.ofSource (Lexer.ofString source))
  (items, journal.records)

/-- The program that a text is, and the records that are written while it is parsed. -/
def parsing (source : String) : Except SyntaxError Program × List Record :=
  let journal := Journal.ofSource (Lexer.ofString source)
  let (outcome, parser) := (Parser.ofSource journal).programNoting Journal.complete
  (outcome, parser.source.records)

end Shading.Log
