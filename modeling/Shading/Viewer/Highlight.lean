import Shading.Text.Character
import Shading.Viewer.Pane

/-!
Colours for a line of source text.

A line is split into words and single other characters, without asking the
lexer, so that text behind a lexical error is coloured too.
-/

namespace Shading.Highlight

def typeWords : List String :=
  ["int", "void", "mat4x4", "float", "float2", "float3", "float4"]

def roleWords : List String := ["uniform", "input", "varying"]

def keywordWords : List String :=
  ["ret", "if", "elif", "else", "while", "function", "var", "uniform", "input", "varying"]

def constantWords : List String := ["true", "false", "vx_Position", "vx_Color"]

/-- The style of a word. It depends on whether an opening parenthesis follows, and
on whether the sign of a pipeline value stands before the word. -/
def wordStyle (word : List Char) (beforeParenthesis afterSign : Bool) : Style :=
  let text := String.ofList word
  if word.head?.any Character.isDigit then
    .colored Theme.number
  else if typeWords.contains text then
    .colored Theme.typeName
  else if roleWords.contains text && afterSign then
    (Style.colored Theme.pipeline).heavy
  else if keywordWords.contains text then
    (Style.colored Theme.keyword).heavy
  else if constantWords.contains text then
    .colored Theme.number
  else if beforeParenthesis then
    .colored Theme.function
  else
    .colored Theme.foreground

def characterStyle (character : Char) : Style :=
  if ['{', '}', '(', ')', '[', ']'].contains character then
    .colored Theme.primary
  else if character = '@' then
    .colored Theme.pipeline
  else
    .colored Theme.foreground

def wordSpans (word : List Char) (beforeParenthesis afterSign : Bool) : List Span :=
  if word.isEmpty then [] else [⟨word, wordStyle word beforeParenthesis afterSign⟩]

/-- The spans of the rest of a line, when `word` was read of a word and the sign of
a pipeline value was seen since the word before it. -/
def spansFrom (word : List Char) (afterSign : Bool) : List Char → List Span
  | [] => wordSpans word false afterSign
  | character :: rest =>
    if Character.isWord character then
      spansFrom (word ++ [character]) afterSign rest
    else
      wordSpans word (character == '(') afterSign ++
        ⟨[character], characterStyle character⟩ ::
          spansFrom [] (character == '@' || (word.isEmpty && afterSign)) rest

def spans (line : List Char) : List Span := spansFrom [] false line

end Shading.Highlight
