import FunctionManifest.Decimal.Binary64
import FunctionManifest.Text.Property

/-!
# Numerals at the start of a text

Digits may be of any script. A numeral is the longest one that the text starts with; what follows it
is left.
-/

namespace FunctionManifest.Decimal

/-- The values of the digits that the text starts with. -/
def digitRun (text : Text) : List Nat := (text.takeWhile Text.isDigit).filterMap Text.digitValue?

def afterDigits (text : Text) : Text := text.dropWhile Text.isDigit

def ofDigits (digits : List Nat) : Nat := digits.foldl (fun n d => 10 * n + d) 0

/-- Whether a minus sign comes first, and the text after an optional sign. -/
def takeSign : Text → Bool × Text
  | .char '-' :: rest => (true, rest)
  | .char '+' :: rest => (false, rest)
  | text => (false, text)

def signed (negative : Bool) (n : Nat) : Int := if negative then -(n : Int) else n

/-- The sign and the digits of the integer after the blanks at the start. -/
def leadingInt? (text : Text) : Option (Bool × List Nat) :=
  let (negative, rest) := takeSign (text.dropWhile Text.isBlank)
  let digits := digitRun rest
  if digits = [] then none else some (negative, digits)

/-- The exponent that the text starts with, zero without one. -/
def exponentOf (text : Text) : Int :=
  match text with
  | c :: rest =>
    if c = 'e' ∨ c = 'E' then
      let (negative, rest) := takeSign rest
      signed negative (ofDigits (digitRun rest))
    else 0
  | [] => 0

/-- Digits before and after a point, and the text after them. -/
def takeFraction (text : Text) : List Nat × List Nat × Text :=
  let whole := digitRun text
  match afterDigits text with
  | .char '.' :: rest => (whole, digitRun rest, afterDigits rest)
  | rest => (whole, [], rest)

/-- The number after the blanks at the start: digits with an optional point, then an optional
exponent. -/
def leadingFloat? (text : Text) : Option Binary64 :=
  let (negative, rest) := takeSign (text.dropWhile Text.isBlank)
  let (whole, fraction, rest) := takeFraction rest
  if whole = [] ∧ fraction = [] then none
  else
    some (.ofDecimal negative (ofDigits (whole ++ fraction)) (exponentOf rest - fraction.length))

end FunctionManifest.Decimal
