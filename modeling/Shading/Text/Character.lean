/-!
Classes of characters.

The classes overlap on purpose: a full stop is both a punctuation mark and an
operator character, a digit is a word character, and some blanks lie in the
range of word characters. Which class wins is decided where a lexeme begins,
not here.
-/

namespace Shading.Character

/-- The code points with the property White_Space, as closed ranges. -/
def blankRanges : List (Nat × Nat) :=
  [(0x0009, 0x000D), (0x0020, 0x0020), (0x0085, 0x0085), (0x00A0, 0x00A0), (0x1680, 0x1680),
   (0x2000, 0x200A), (0x2028, 0x2029), (0x202F, 0x202F), (0x205F, 0x205F), (0x3000, 0x3000)]

def isBlank (character : Char) : Bool :=
  blankRanges.any fun (first, last) =>
    first ≤ character.toNat && character.toNat ≤ last

/-- Control characters of either half of the first code page; they take no column. -/
def isControl (character : Char) : Bool :=
  character.toNat ≤ 0x1F || (0x7F ≤ character.toNat && character.toNat ≤ 0x9F)

def operatorCharacters : List Char :=
  ['+', '-', '/', '*', '!', '&', '|', '~', '^', '.', '=', '>', '<', ':']

def isOperator (character : Char) : Bool :=
  operatorCharacters.contains character

/-- A decimal digit; the digits of other scripts are word characters only. -/
def isDigit (character : Char) : Bool :=
  '0' ≤ character && character ≤ '9'

def digitValue (character : Char) : Nat :=
  character.toNat - '0'.toNat

def isLetter (character : Char) : Bool :=
  ('a' ≤ character && character ≤ 'z') || ('A' ≤ character && character ≤ 'Z')

def firstWideWordCode : Nat := 161

/-- Whether a character continues a word: letters and digits of the basic
alphabet, the low line, and everything from the inverted exclamation mark on. -/
def isWord (character : Char) : Bool :=
  isLetter character || isDigit character || character == '_' ||
    firstWideWordCode ≤ character.toNat

/-! ### Escaped form -/

def hexadecimal (number : Nat) : String :=
  String.ofList (Nat.toDigits 16 number)

/-- A character as a message quotes it: the usual short escapes, visible
characters of the basic alphabet as they are, and any other by its code. -/
def escaped (character : Char) : String :=
  match character with
  | '\t' => "\\t"
  | '\r' => "\\r"
  | '\n' => "\\n"
  | '\'' => "\\'"
  | '"' => "\\\""
  | '\\' => "\\\\"
  | _ =>
    if 0x20 ≤ character.toNat && character.toNat ≤ 0x7E then
      String.singleton character
    else
      "\\u" ++ "\x7b" ++ hexadecimal character.toNat ++ "\x7d"

end Shading.Character
