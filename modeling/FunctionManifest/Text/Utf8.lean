import FunctionManifest.Text.Quoted

/-!
# Reading UTF-8

A source is refused at its first bytes that are not the encoding of a character.
-/

namespace FunctionManifest.Text.Utf8

inductive Cause where
  | startByte
  | continuation
  | endOfText
  deriving DecidableEq, Inhabited, Repr

def Cause.message : Cause → String
  | .startByte => "invalid start byte"
  | .continuation => "invalid continuation byte"
  | .endOfText => "unexpected end of data"

/-- The refused bytes start at a position and are at least one. -/
structure Fault where
  cause : Cause
  position : Nat
  bytes : List Nat
  deriving DecidableEq, Inhabited, Repr

def Fault.message (fault : Fault) : String :=
  let what := match fault.bytes with
    | [byte] => "byte 0x" ++ String.ofList (hexDigits 2 byte) ++ s!" in position {fault.position}"
    | bytes => s!"bytes in position {fault.position}-{fault.position + bytes.length - 1}"
  s!"'utf-8' codec can't decode {what}: {fault.cause.message}"

/-- The bytes that may follow a first byte, one range for each; none for a wrong first byte. -/
def continuations? (first : Nat) : Option (List (Nat × Nat)) :=
  let any := (0x80, 0xbf)
  if first < 0x80 then some []
  else if first < 0xc2 then none
  else if first < 0xe0 then some [any]
  else if first = 0xe0 then some [(0xa0, 0xbf), any]
  else if first = 0xed then some [(0x80, 0x9f), any]
  else if first < 0xf0 then some [any, any]
  else if first = 0xf0 then some [(0x90, 0xbf), any, any]
  else if first < 0xf4 then some [any, any, any]
  else if first = 0xf4 then some [(0x80, 0x8f), any, any]
  else none

/-- The bytes taken for the ranges, and why not all ranges were served. -/
def follow : List (Nat × Nat) → List Nat → List Nat × Option Cause
  | [], _ => ([], none)
  | _ :: _, [] => ([], some .endOfText)
  | range :: ranges, byte :: bytes =>
    if range.1 ≤ byte ∧ byte ≤ range.2 then
      let (taken, cause) := follow ranges bytes
      (byte :: taken, cause)
    else ([], some .continuation)

/-- The code point of a first byte and the bytes after it. -/
def codePoint (first : Nat) (rest : List Nat) : Nat :=
  let lead := if rest.length = 0 then first else first % Nat.pow 2 (6 - rest.length)
  rest.foldl (fun code byte => code * 64 + byte % 64) lead

/-- The first fault from the position on. Bytes taken by a character before are skipped. -/
def faultFrom (position skip : Nat) : List Nat → Option Fault
  | [] => none
  | byte :: bytes =>
    match skip with
    | skip + 1 => faultFrom (position + 1) skip bytes
    | 0 =>
      match continuations? byte with
      | none => some ⟨.startByte, position, [byte]⟩
      | some ranges =>
        match follow ranges bytes with
        | (taken, none) => faultFrom (position + 1) taken.length bytes
        | (taken, some cause) => some ⟨cause, position, byte :: taken⟩

/-- The first bytes that cannot be read. -/
def fault? (bytes : List Nat) : Option Fault := faultFrom 0 0 bytes

/-- The characters, up to the first fault. -/
def charsFrom (skip : Nat) : List Nat → List Char
  | [] => []
  | byte :: bytes =>
    match skip with
    | skip + 1 => charsFrom skip bytes
    | 0 =>
      match continuations? byte with
      | none => []
      | some ranges =>
        match follow ranges bytes with
        | (taken, none) => Char.ofNat (codePoint byte taken) :: charsFrom taken.length bytes
        | (_, some _) => []

def decode (bytes : List Nat) : Except Fault Text :=
  match fault? bytes with
  | some fault => .error fault
  | none => .ok (ofChars (charsFrom 0 bytes))

end FunctionManifest.Text.Utf8
