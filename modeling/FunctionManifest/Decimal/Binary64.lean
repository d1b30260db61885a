import FunctionManifest.Text.Letter

/-!
# Double-precision numbers

A number is a sign, a significand below 2^53 and a power of two, so reading and writing decimals is
exact arithmetic on natural numbers. Reading rounds to the nearest number, a tie to the even one;
writing takes the fewest digits that read back.
-/

namespace FunctionManifest

/-- The value of `finite s m e` is `m * 2^e`, negated if `s` holds. The power is least when the
significand is below 2^52. What is no number has an identity of its own: one such value is told from
another although both are written alike. -/
inductive Binary64 where
  | nan (identity : Nat)
  | infinite (negative : Bool)
  | finite (negative : Bool) (significand : Nat) (power : Int)
  deriving DecidableEq, Inhabited, Repr

namespace Binary64

/-- The least power of two. -/
def leastPower : Int := -1074

/-- The greatest power of two. -/
def greatestPower : Int := 971

def zero (negative : Bool) : Binary64 := .finite negative 0 leastPower

/-! ## Reading -/

/-- The quotient rounded to nearest, a half to the even neighbour. -/
def roundedQuotient (num den : Nat) : Nat :=
  let quotient := num / den
  let twice := 2 * (num % den)
  if twice < den then quotient
  else if den < twice then quotient + 1
  else quotient + quotient % 2

/-- `num / den * 2^(-power)` as a quotient. -/
def scaled (num den : Nat) (power : Int) : Nat × Nat :=
  if power < 0 then (num * Nat.pow 2 power.natAbs, den) else (num, den * Nat.pow 2 power.natAbs)

/-- The power of two that leaves a significand of 53 bits, or the least power. -/
def powerFor (num den : Nat) : Int :=
  let guess : Int := (num.log2 : Int) - (den.log2 : Int) - 52
  let (top, bottom) := scaled num den guess
  max leastPower (if top < bottom * Nat.pow 2 52 then guess - 1 else guess)

/-- `num / den` as a multiple of `2^power`, rounded. -/
def roundedAt (num den : Nat) (power : Int) : Nat :=
  let (top, bottom) := scaled num den power
  roundedQuotient top bottom

/-- The number with this significand, if its power is not too great. -/
def bounded (negative : Bool) (significand : Nat) (power : Int) : Binary64 :=
  if greatestPower < power then .infinite negative else .finite negative significand power

/-- Rounding up can take a significand to the 54th bit. -/
def ofRounded (negative : Bool) (rounded : Nat) (power : Int) : Binary64 :=
  if rounded = Nat.pow 2 53 then bounded negative (Nat.pow 2 52) (power + 1)
  else bounded negative rounded power

/-- The number nearest to `num / den`. -/
def ofQuotient (negative : Bool) (num den : Nat) : Binary64 :=
  if num = 0 then zero negative
  else
    let power := powerFor num den
    ofRounded negative (roundedAt num den power) power

/-- How many decimal digits a number has; none for zero. -/
def digitCount (n : Nat) : Nat := if n = 0 then 0 else (Nat.toDigits 10 n).length

/-- The number nearest to `digits * 10^exponent`. Far outside the range the digits do not matter. -/
def ofDecimal (negative : Bool) (digits : Nat) (exponent : Int) : Binary64 :=
  let magnitude := exponent + digitCount digits
  if digits = 0 ∨ magnitude < -400 then zero negative
  else if 400 < magnitude then .infinite negative
  else if exponent < 0 then ofQuotient negative digits (Nat.pow 10 exponent.natAbs)
  else ofQuotient negative (digits * Nat.pow 10 exponent.natAbs) 1

/-! ## The exact value -/

/-- The magnitude of a finite number as a quotient. -/
def magnitude (significand : Nat) (power : Int) : Nat × Nat :=
  if power < 0 then (significand, Nat.pow 2 power.natAbs)
    else (significand * Nat.pow 2 power.natAbs, 1)

/-- The number is this integer. -/
def isInt (x : Binary64) (n : Int) : Bool :=
  match x with
  | .finite negative significand power =>
    let (num, den) := magnitude significand power
    (if negative then -(num : Int) else num) == n * den
  | _ => false

/-- Equality of numbers: both zeros are equal and nothing equals the undefined number. -/
def same (x y : Binary64) : Bool :=
  match x, y with
  | .nan _, _ | _, .nan _ => false
  | .finite _ 0 _, .finite _ 0 _ => true
  | _, _ => x == y

/-! ## Writing -/

/-- Digits and an exponent of ten that give the value exactly. -/
def exactDecimal (significand : Nat) (power : Int) : Nat × Int :=
  if power < 0 then (significand * Nat.pow 5 power.natAbs, power)
  else (significand * Nat.pow 2 power.natAbs, 0)

/-- The position of the decimal point: the least `p` with `num / den < 10^p`. -/
def pointPosition (num den : Nat) : Int :=
  let guess : Int := (digitCount num : Int) - (digitCount den : Int)
  let below :=
    if guess < 0 then num * Nat.pow 10 guess.natAbs < den else num < den * Nat.pow 10 guess.natAbs
  if below then guess else guess + 1

/-- The neighbours of `num / den` among the multiples of `10^exponent`, the nearer one first and of
two at the same distance the even one. -/
def neighbours (num den : Nat) (exponent : Int) : List Nat :=
  let (top, bottom) :=
    if exponent < 0 then (num * Nat.pow 10 exponent.natAbs, den)
    else (num, den * Nat.pow 10 exponent.natAbs)
  let low := top / bottom
  if roundedQuotient top bottom = low then [low, low + 1] else [low + 1, low]

/-- The first neighbour on the grid of `count` digits that reads back. -/
def withDigits? (significand : Nat) (power : Int) (count : Nat) : Option (Nat × Int) :=
  let (num, den) := magnitude significand power
  let exponent := pointPosition num den - count
  ((neighbours num den exponent).find? fun digits =>
    ofDecimal false digits exponent = .finite false significand power).map (·, exponent)

/-- The fewest digits that read back, with their exponent of ten. -/
def shortestDecimal (significand : Nat) (power : Int) : Nat × Int :=
  ((List.range 17).findSome? fun n => withDigits? significand power (n + 1)).getD
    (exactDecimal significand power)

/-- The digits without the zeros at their end, and the place of the decimal point before them. -/
def digitsAndPoint (digits : Nat) (exponent : Int) : List Char × Int :=
  let all := Nat.toDigits 10 digits
  let kept := (all.reverse.dropWhile (· = '0')).reverse
  (kept, exponent + all.length)

def zeros (n : Nat) : List Char := List.replicate n '0'

/-- An exponent has a sign and at least two digits. -/
def exponentText (exponent : Int) : List Char :=
  let digits := Nat.toDigits 10 exponent.natAbs
  (if exponent < 0 then '-' else '+') :: (zeros (2 - digits.length) ++ digits)

/-- A magnitude from 10^-4 up to 10^16 is written without an exponent. -/
def layout (digits : List Char) (point : Int) : List Char :=
  if digits = [] then ['0', '.', '0']
  else if -3 ≤ point ∧ point ≤ 0 then '0' :: '.' :: (zeros point.natAbs ++ digits)
  else if 0 < point ∧ point ≤ 16 then
    let whole := point.natAbs
    if digits.length ≤ whole then digits ++ zeros (whole - digits.length) ++ ['.', '0']
    else digits.take whole ++ '.' :: digits.drop whole
  else
    let rest := digits.drop 1
    digits.take 1 ++ (if rest = [] then [] else '.' :: rest) ++ 'e' :: exponentText (point - 1)

def text : Binary64 → Text
  | .nan _ => "nan"
  | .infinite negative => if negative then "-inf" else "inf"
  | .finite negative significand power =>
    let (digits, exponent) := shortestDecimal significand power
    let (digits, point) := digitsAndPoint digits exponent
    Text.ofChars ((if negative then ['-'] else []) ++ layout digits point)

end Binary64

end FunctionManifest
