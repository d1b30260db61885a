import FunctionManifest.Text.Property

/-!
# Quoted texts

How a text is shown inside a message or a description: between quotes, with every letter that does
not print written as an escape.
-/

namespace FunctionManifest.Text

/-- The value in base 16, in exactly `width` lower-case digits. -/
def hexDigits (width value : Nat) : List Char :=
  match width with
  | 0 => []
  | width + 1 => hexDigits width (value / 16) ++ [Nat.digitChar (value % 16)]

/-- The escape for a letter that does not print: two, four or eight digits. -/
def escapeCode (code : Nat) : List Char :=
  if code < 0x100 then '\\' :: 'x' :: hexDigits 2 code
  else if code < 0x10000 then '\\' :: 'u' :: hexDigits 4 code
  else '\\' :: 'U' :: hexDigits 8 code

def quotedLetter (quote : Char) (c : Letter) : Text :=
  if c = quote ∨ c = '\\' then ['\\', c]
  else if c = '\n' then ['\\', 'n']
  else if c = '\r' then ['\\', 'r']
  else if c = '\t' then ['\\', 't']
  else if isPrintable c then [c]
  else ofChars (escapeCode c.code)

/-- Single quotes, but double ones for a text with single quotes and no double ones. -/
def quoteFor (text : Text) : Char :=
  if .char '\'' ∈ text ∧ .char '"' ∉ text then '"' else '\''

def quoted (text : Text) : Text :=
  let quote := quoteFor text
  .char quote :: text.flatMap (quotedLetter quote) ++ [.char quote]

end FunctionManifest.Text
