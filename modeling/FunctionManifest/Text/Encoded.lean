import FunctionManifest.Text.Utf8

/-!
# Texts kept as bytes

Where a text is kept as bytes, a half from one range stands for a byte that is part of no character.
Other halves have no bytes. Bytes that make a character after all come back as that character.
-/

namespace FunctionManifest.Text.Encoded

/-- The half for a byte comes as many places after this one as the byte says. -/
def byteHalves : Nat := 0xdc00

/-- The byte that a half stands for. Bytes below 128 are always characters. -/
def byteOf? (c : Letter) : Option Nat :=
  if byteHalves + 0x80 ≤ c.code ∧ c.code < byteHalves + 0x100 then some (c.code - byteHalves)
  else none

def isHalf : Letter → Bool
  | .char _ => false
  | .half _ => true

/-- The half has no bytes. -/
def isRefused (c : Letter) : Bool := isHalf c && (byteOf? c).isNone

/-- The place of the first half without bytes, and the codes of the halves from there on. -/
def refused? (text : Text) : Option (Nat × List Nat) :=
  (text.findIdx? isRefused).map fun position =>
    (position, ((text.drop position).takeWhile isHalf).map Letter.code)

/-- Six bits of a code point as a byte that continues a character. -/
def continuation (code shift : Nat) : Nat := 0x80 + code / Nat.pow 64 shift % 64

def bytesOfCode (code : Nat) : List Nat :=
  if code < 0x80 then [code]
  else if code < 0x800 then [0xc0 + code / 64, continuation code 0]
  else if code < 0x10000 then [0xe0 + code / Nat.pow 64 2, continuation code 1, continuation code 0]
  else [0xf0 + code / Nat.pow 64 3, continuation code 2, continuation code 1, continuation code 0]

def bytes (text : Text) : List Nat :=
  text.flatMap fun c => ((byteOf? c).map fun byte => [byte]).getD (bytesOfCode c.code)

/-- The letters of bytes. The first `skip` bytes belong to a letter before. -/
def lettersFrom (skip : Nat) : List Nat → Text
  | [] => []
  | byte :: bytes =>
    match skip with
    | skip + 1 => lettersFrom skip bytes
    | 0 =>
      match (Utf8.continuations? byte).map (Utf8.follow · bytes) with
      | some (taken, none) =>
        .char (Char.ofNat (Utf8.codePoint byte taken)) :: lettersFrom taken.length bytes
      | _ => .ofCode (byteHalves + byte) :: lettersFrom 0 bytes

/-- The text as it comes back from its bytes. -/
def kept (text : Text) : Text :=
  if text.any isHalf then lettersFrom 0 (bytes text) else text

end FunctionManifest.Text.Encoded
