import FunctionManifest.Text.Letter

/-!
# What is wrong with a JSON document

A fault is a cause and the place where it was noticed, counted in letters.
-/

namespace FunctionManifest.Json

inductive Cause where
  | byteOrderMark
  | missingValue
  | missingName
  | missingColon
  | missingComma
  | extraText
  | openText
  | controlCharacter
  | badEscape
  | badCodeUnit
  deriving DecidableEq, Inhabited, Repr

def Cause.message : Cause → String
  | .byteOrderMark => "Unexpected UTF-8 BOM (decode using utf-8-sig)"
  | .missingValue => "Expecting value"
  | .missingName => "Expecting property name enclosed in double quotes"
  | .missingColon => "Expecting ':' delimiter"
  | .missingComma => "Expecting ',' delimiter"
  | .extraText => "Extra data"
  | .openText => "Unterminated string starting at"
  | .controlCharacter => "Invalid control character at"
  | .badEscape => "Invalid \\escape"
  | .badCodeUnit => "Invalid \\uXXXX escape"

/-- Lines and columns count from one, the position from zero. -/
structure Fault where
  cause : Cause
  line : Nat
  column : Nat
  position : Nat
  deriving DecidableEq, Inhabited, Repr

namespace Fault

/-- The fault at a position of a document. -/
def ofPosition (cause : Cause) (document : Text) (position : Nat) : Fault :=
  let before := document.take position
  { cause
    line := before.count (.char '\n') + 1
    column := (before.reverse.takeWhile (· ≠ .char '\n')).length + 1
    position }

def message (fault : Fault) : String :=
  s!"{fault.cause.message}: line {fault.line} column {fault.column} (char {fault.position})"

end Fault

end FunctionManifest.Json
