import FunctionManifest.Text.Quoted

/-!
# JSON texts

A text between double quotes. Quotes, backslashes and control characters are escaped; whether other
letters are is a choice of the document.
-/

namespace FunctionManifest.Json

inductive Charset where
  | ascii
  | unicode
  deriving DecidableEq, Inhabited, Repr

def codeUnitEscape (unit : Nat) : List Char := '\\' :: 'u' :: Text.hexDigits 4 unit

/-- A character above the first plane takes two units. -/
def escapedUnits (code : Nat) : List Char :=
  if code < 0x10000 then codeUnitEscape code
  else
    codeUnitEscape (0xd800 + (code - 0x10000) / 0x400) ++
      codeUnitEscape (0xdc00 + (code - 0x10000) % 0x400)

def escapedLetter (charset : Charset) (c : Letter) : Text :=
  if c = '"' then ['\\', '"']
  else if c = '\\' then ['\\', '\\']
  else if c = '\n' then ['\\', 'n']
  else if c = '\r' then ['\\', 'r']
  else if c = '\t' then ['\\', 't']
  else if c.code = 8 then ['\\', 'b']
  else if c.code = 12 then ['\\', 'f']
  else if c.code < 0x20 then Text.ofChars (codeUnitEscape c.code)
  else if charset = .ascii ∧ 0x7e < c.code then Text.ofChars (escapedUnits c.code)
  else [c]

def quoted (charset : Charset) (text : Text) : Text :=
  .char '"' :: text.flatMap (escapedLetter charset) ++ [.char '"']

end FunctionManifest.Json
