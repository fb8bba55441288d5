/-!
The options of the command.

Options are flags without values, written out behind two dashes or as letters
behind one, several letters together if wanted. They may stand before and after
the file. A double dash alone ends the options, and a single dash alone is a
file.
-/

namespace Shading.CommandLine

inductive Flag where
  | tokens
  | dump
  | verbose
  | help
deriving DecidableEq, Repr

namespace Flag

def all : List Flag := [tokens, dump, verbose, help]

def word : Flag → String
  | tokens => "tokens"
  | dump => "dump"
  | verbose => "verbose"
  | help => "help"

def letter : Flag → Char
  | tokens => 't'
  | dump => 'd'
  | verbose => 'v'
  | help => 'h'

def repeatable : Flag → Bool
  | verbose => true
  | _ => false

def ofLetter? (letter : Char) : Option Flag := all.find? (·.letter == letter)

def ofName? (name : String) : Option Flag :=
  all.find? fun flag => flag.word == name || String.singleton flag.letter == name

end Flag

inductive UsageError where
  /-- No such option, or a second file. -/
  | unrecognized (text : String)
  | repeated (flag : Flag)
  | needlessValue (name : String)
  | exclusive
  | fileMissing
deriving DecidableEq, Repr

def UsageError.message : UsageError → String
  | unrecognized text => "Unrecognized option: '" ++ text ++ "'"
  | repeated flag => "Option '" ++ flag.word ++ "' given more than once"
  | needlessValue name => "Option '" ++ name ++ "' does not take an argument"
  | exclusive => "Option '--tokens and --dump are exclusive' does not take an argument"
  | fileMissing => "Required option 'FILE' missing"

/-- Arguments taken apart: the flags in their order, and everything else. -/
structure Arguments where
  flags : List Flag
  free : List String
deriving DecidableEq, Repr

namespace Arguments

def withFlags (flags : List Flag) (arguments : Arguments) : Arguments :=
  { arguments with flags := flags ++ arguments.flags }

def withFree (text : String) (arguments : Arguments) : Arguments :=
  { arguments with free := text :: arguments.free }

end Arguments

def lettersToFlags : List Char → Except UsageError (List Flag)
  | [] => .ok []
  | letter :: letters =>
    match Flag.ofLetter? letter with
    | none => .error (.unrecognized (String.singleton letter))
    | some flag => (lettersToFlags letters).map (flag :: ·)

/-- The flag of a name behind two dashes. Anything from an equals sign on would be
a value, which no flag takes. -/
def nameToFlag (text : List Char) : Except UsageError Flag :=
  let name := String.ofList (text.takeWhile (· != '='))
  match Flag.ofName? name with
  | none => .error (.unrecognized name)
  | some flag => if text.contains '=' then .error (.needlessValue name) else .ok flag

def takeApart : List String → Except UsageError Arguments
  | [] => .ok ⟨[], []⟩
  | argument :: rest =>
    match argument.toList with
    | ['-', '-'] => .ok ⟨[], rest⟩
    | '-' :: '-' :: name =>
      match nameToFlag name with
      | .error failure => .error failure
      | .ok flag => (takeApart rest).map (Arguments.withFlags [flag])
    | '-' :: letter :: letters =>
      match lettersToFlags (letter :: letters) with
      | .error failure => .error failure
      | .ok flags => (takeApart rest).map (Arguments.withFlags flags)
    | _ => (takeApart rest).map (Arguments.withFree argument)

inductive Task where
  | help
  | tokens (path : String)
  | dump (path : String)
  | view (path : String)
deriving DecidableEq, Repr

structure Invocation where
  task : Task
  verbosity : Nat
deriving DecidableEq, Repr

def repeatedFlag? (flags : List Flag) : Option Flag :=
  Flag.all.find? fun flag => !flag.repeatable && decide (1 < flags.count flag)

/-- The task that flags and free arguments ask for. Help is given without a file
and in spite of other flags; otherwise there has to be one file. -/
def Arguments.task (arguments : Arguments) : Except UsageError Task :=
  if arguments.flags.contains .help then
    .ok .help
  else
    match arguments.free with
    | [] => .error .fileMissing
    | _ :: second :: _ => .error (.unrecognized second)
    | [path] =>
      match arguments.flags.contains .tokens, arguments.flags.contains .dump with
      | true, true => .error .exclusive
      | true, false => .ok (.tokens path)
      | false, true => .ok (.dump path)
      | false, false => .ok (.view path)

def Invocation.ofArguments (arguments : List String) : Except UsageError Invocation := do
  let parts ← takeApart arguments
  match repeatedFlag? parts.flags with
  | some flag => .error (.repeated flag)
  | none =>
    let task ← parts.task
    .ok ⟨task, parts.flags.count .verbose⟩

def usageLines (program : String) : List String :=
  ["Usage: " ++ program ++ " [OPTIONS] FILE",
   "",
   "Options:",
   "    -t, --tokens        print the token stream and exit",
   "    -d, --dump          print the syntax tree and exit",
   "    -v, --verbose       log lexer/parser activity to stderr (repeat for trace)",
   "    -h, --help          print this help menu",
   ""]

end Shading.CommandLine
