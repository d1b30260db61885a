import FunctionManifest.Assoc
import FunctionManifest.Decimal.Numeral
import FunctionManifest.Json.Fault
import FunctionManifest.Value.Basic

/-!
# Reading JSON

A document is one value with blanks around it. Of two members with one name the first gives the
place and the last the value. Not-a-number and the infinities are accepted; a very long integer is
grammatical and still refused.
-/

namespace FunctionManifest.Json

/-- Why reading stopped: a fault with the number of letters left at its place, an integer with too
many digits, or too many objects and lists in one another. -/
inductive Stop where
  | fault (cause : Cause) (left : Nat)
  | tooLong (digits : Nat)
  | tooDeep (isObject : Bool)
  deriving Inhabited, Repr

def isBlank (c : Letter) : Bool := c = ' ' || c = '\t' || c = '\n' || c = '\r'

def skipBlanks (text : Text) : Text := text.dropWhile isBlank

/-! ## Texts -/

/-- The value of a digit in base 16. -/
def hexValue? (c : Letter) : Option Nat :=
  let code := c.code
  if '0'.toNat ≤ code ∧ code ≤ '9'.toNat then some (code - '0'.toNat)
  else if 'a'.toNat ≤ code ∧ code ≤ 'f'.toNat then some (code - 'a'.toNat + 10)
  else if 'A'.toNat ≤ code ∧ code ≤ 'F'.toNat then some (code - 'A'.toNat + 10)
  else none

/-- Four digits that another letter follows. -/
def codeUnit? : Text → Option Nat
  | a :: b :: c :: d :: _ :: _ => do
    return (((← hexValue? a) * 16 + (← hexValue? b)) * 16 + (← hexValue? c)) * 16 + (← hexValue? d)
  | _ => none

/-- The letters that stand for others after a backslash. -/
def simpleEscapes : List (Letter × Letter) :=
  [('"', '"'), ('\\', '\\'), ('/', '/'), ('b', .ofCode 8), ('f', .ofCode 12), ('n', '\n'),
    ('r', '\r'), ('t', '\t')]

/-- A unit from the first halves of pairs. -/
def isHigh (unit : Nat) : Bool := 0xd800 ≤ unit && unit < 0xdc00

/-- A unit from the second halves of pairs. -/
def isLow (unit : Nat) : Bool := 0xdc00 ≤ unit && unit < 0xe000

/-- The letter of an escape and how many letters after the backslash it takes. The argument is what
follows the `u`. Two halves in a row that make a pair are one letter. -/
def unitEscape (rest : Text) : Except Stop (Letter × Nat) :=
  match codeUnit? rest with
  | none => .error (.fault .badCodeUnit (rest.length + 1))
  | some high =>
    match rest.drop 4 with
    | .char '\\' :: .char 'u' :: next =>
      if isHigh high ∧ 4 < next.length then
        match codeUnit? next with
        | none => .error (.fault .badCodeUnit (next.length + 1))
        | some low =>
          if isLow low then .ok (.ofCode (0x10000 + (high - 0xd800) * 0x400 + (low - 0xdc00)), 11)
          else .ok (.ofCode high, 5)
      else .ok (.ofCode high, 5)
    | _ => .ok (.ofCode high, 5)

/-- The escape after a backslash. `opened` is the place of the quote that opens the text. -/
def escape (opened : Nat) : Text → Except Stop (Letter × Nat)
  | [] => .error (.fault .openText opened)
  | c :: rest =>
    if c = 'u' then unitEscape rest
    else
      match simpleEscapes.lookup c with
      | some decoded => .ok (decoded, 1)
      | none => .error (.fault .badEscape (rest.length + 2))

/-- The text up to the closing quote and what follows it. The first `skip` letters belong to an
escape already read. -/
def textFrom (opened skip : Nat) : Text → Except Stop (Text × Text)
  | [] => .error (.fault .openText opened)
  | c :: rest =>
    match skip with
    | skip + 1 => textFrom opened skip rest
    | 0 =>
      if c = '"' then .ok ([], rest)
      else if c = '\\' then do
        let (decoded, length) ← escape opened rest
        let (text, after) ← textFrom opened length rest
        return (decoded :: text, after)
      else if c.code < 0x20 then .error (.fault .controlCharacter (rest.length + 1))
      else do
        let (text, after) ← textFrom opened 0 rest
        return (c :: text, after)

/-- The argument is what follows the opening quote. -/
def text (rest : Text) : Except Stop (Text × Text) := textFrom (rest.length + 1) 0 rest

/-! ## Numbers -/

def isDigit (c : Char) : Bool := '0' ≤ c && c ≤ '9'

def takeDigits (text : Text) : Text × Text := text.span (·.isIn isDigit)

/-- An integer part has no zero before other digits. -/
def takeWhole : Text → Option (Text × Text)
  | .char '0' :: rest => some (['0'], rest)
  | c :: rest => if c.isIn isDigit then some (takeDigits (c :: rest)) else none
  | [] => none

/-- A point with at least one digit, or nothing. -/
def takePoint (text : Text) : Text × Text :=
  match text with
  | .char '.' :: rest => if (takeDigits rest).1 = [] then ([], text) else takeDigits rest
  | _ => ([], text)

/-- An exponent with at least one digit, or nothing. -/
def takeExponent (text : Text) : Option Int × Text :=
  match text with
  | c :: rest =>
    if c = 'e' ∨ c = 'E' then
      let (negative, digitsAndRest) := Decimal.takeSign rest
      let (digits, after) := takeDigits digitsAndRest
      if digits = [] then (none, text)
      else (some (Decimal.signed negative (Decimal.ofDigits (Decimal.digitRun digits))), after)
    else (none, text)
  | [] => (none, text)

def number (limit : Option Nat) (start : Text) : Except Stop (Value × Text) :=
  let (negative, rest) :=
    match start with
    | .char '-' :: rest => (true, rest)
    | rest => (false, rest)
  match takeWhole rest with
  | none => .error (.fault .missingValue start.length)
  | some (whole, rest) =>
    let (fraction, rest) := takePoint rest
    let (exponent, rest) := takeExponent rest
    if fraction = [] ∧ exponent = none then
      if limit.any (· < whole.length) then .error (.tooLong whole.length)
      else .ok (.int (Decimal.signed negative (Decimal.ofDigits (Decimal.digitRun whole))), rest)
    else
      let digits := Decimal.ofDigits (Decimal.digitRun (whole ++ fraction))
      .ok (.float (.ofDecimal negative digits (exponent.getD 0 - fraction.length)), rest)

/-! ## Values -/

def words : List (Text × Value) :=
  [("null", .null), ("true", .bool true), ("false", .bool false), ("NaN", .float (.nan 0)),
    ("Infinity", .float (.infinite false)), ("-Infinity", .float (.infinite true))]

/-- The word that the text starts with. -/
def word? (text : Text) : Option (Value × Text) :=
  (words.find? fun word => word.1.isPrefixOf text).map fun word =>
    (word.2, text.drop word.1.length)

def object (members : Fields) : Value := .named (Assoc.ofList members.reverse)

mutual

/-- What holds others takes a letter for two steps, its own and that of its first part, so the fuel
is twice the length of the document. What holds others takes some of the room. -/
def value (limit : Option Nat) (room fuel : Nat) (start : Text) : Except Stop (Value × Text) :=
  match fuel with
  | 0 => .error (.fault .missingValue start.length)
  | fuel + 1 =>
    match start with
    | .char '"' :: rest => do
      let (s, rest) ← text rest
      return (.text s, rest)
    | .char '{' :: rest =>
      match room, skipBlanks rest with
      | 0, _ => .error (.tooDeep true)
      | _, .char '}' :: rest => .ok (object [], rest)
      | room + 1, rest => members limit room fuel [] rest
    | .char '[' :: rest =>
      match room, skipBlanks rest with
      | 0, _ => .error (.tooDeep false)
      | _, .char ']' :: rest => .ok (.list [], rest)
      | room + 1, rest => elements limit room fuel [] rest
    | _ =>
      match word? start with
      | some found => .ok found
      | none => number limit start

/-- Members from the name of one on; those before it come last first. -/
def members (limit : Option Nat) (room fuel : Nat) (before : Fields)
    (start : Text) : Except Stop (Value × Text) :=
  match fuel with
  | 0 => .error (.fault .missingName start.length)
  | fuel + 1 =>
    match start with
    | .char '"' :: rest => do
      let (name, rest) ← text rest
      match skipBlanks rest with
      | .char ':' :: rest => do
        let (v, rest) ← value limit room fuel (skipBlanks rest)
        match skipBlanks rest with
        | .char '}' :: rest => return (object ((name, v) :: before), rest)
        | .char ',' :: rest => members limit room fuel ((name, v) :: before) (skipBlanks rest)
        | rest => .error (.fault .missingComma rest.length)
      | rest => .error (.fault .missingColon rest.length)
    | _ => .error (.fault .missingName start.length)

/-- Elements from one on; those before it come last first. -/
def elements (limit : Option Nat) (room fuel : Nat) (before : List Value) (start : Text) :
    Except Stop (Value × Text) :=
  match fuel with
  | 0 => .error (.fault .missingValue start.length)
  | fuel + 1 => do
    let (v, rest) ← value limit room fuel start
    match skipBlanks rest with
    | .char ']' :: rest => return (.list (v :: before).reverse, rest)
    | .char ',' :: rest => elements limit room fuel (v :: before) (skipBlanks rest)
    | rest => .error (.fault .missingComma rest.length)

end

/-- How many objects and lists may stand in one another. -/
def depthLimit : Nat := 980

/-- The whole document is one value. -/
def document (limit : Option Nat) (start : Text) : Except Stop Value := do
  if start.head? = some (.char '\ufeff') then throw (.fault .byteOrderMark start.length)
  let (v, rest) ← value limit depthLimit (2 * start.length + 2) (skipBlanks start)
  match skipBlanks rest with
  | [] => return v
  | rest => throw (.fault .extraText rest.length)

/-- Why a document cannot be read. -/
inductive Unreadable where
  | fault (fault : Fault)
  | tooLong (digits : Nat)
  | tooDeep (isObject : Bool)
  deriving Inhabited, Repr

def readWithin (limit : Option Nat) (start : Text) : Except Unreadable Value :=
  match document limit start with
  | .ok v => .ok v
  | .error (.fault cause left) =>
    .error (.fault (.ofPosition cause start (start.length - left)))
  | .error (.tooLong digits) => .error (.tooLong digits)
  | .error (.tooDeep isObject) => .error (.tooDeep isObject)

def Unreadable.failure (asFailure : Fault → Failure) : Unreadable → Failure
  | .fault f => asFailure f
  | .tooLong digits => .tooLongToRead digits
  | .tooDeep isObject =>
    .endless (" while decoding a JSON " ++ (if isObject then "object" else "array") ++
      " from a unicode string")

def read (source : Text) : Except Unreadable Value := readWithin (some digitLimit) source

end FunctionManifest.Json
