/-!
# Texts

A text is a list of letters. A letter is a character, or half of a pair of code units that stands
without its other half, as an escape in a document can write it.
-/

namespace FunctionManifest

inductive Letter where
  | char (c : Char)
  /-- The code unit at this offset from the first one that is no character by itself. -/
  | half (offset : Fin 2048)
  deriving DecidableEq, Inhabited, Repr

namespace Letter

instance : Coe Char Letter := ⟨.char⟩

/-- The first code unit that is no character by itself. -/
def firstHalf : Nat := 0xd800

def code : Letter → Nat
  | .char c => c.toNat
  | .half offset => firstHalf + offset

/-- The letter of a code point. -/
def ofCode (code : Nat) : Letter :=
  if h : code - firstHalf < 2048 then
    if firstHalf ≤ code then .half ⟨code - firstHalf, h⟩ else .char (Char.ofNat code)
  else .char (Char.ofNat code)

/-- The letter is a character in a class. -/
def isIn (accepts : Char → Bool) : Letter → Bool
  | .char c => accepts c
  | .half _ => false

/-- The character itself; the replacement character for a half. -/
def nearest : Letter → Char
  | .char c => c
  | .half _ => '\ufffd'

end Letter

abbrev Text := List Letter

namespace Text

def ofChars (chars : List Char) : Text := chars.map .char

def ofString (s : String) : Text := ofChars s.toList

instance : Coe String Text := ⟨ofString⟩

/-- The characters of a text, if no half stands in it. -/
def chars? : Text → Option (List Char)
  | [] => some []
  | .char c :: rest => (chars? rest).map (c :: ·)
  | .half _ :: _ => none

/-- The text as one that has characters only. It is the same unless a half stands in it. -/
def spelled (text : Text) : String := String.ofList (text.map Letter.nearest)

/-- The decimal digits of a number. -/
def ofNat (n : Nat) : Text := ofChars (Nat.toDigits 10 n)

end Text

end FunctionManifest
