import FunctionManifest.Text.Regular
import FunctionManifest.Value.Basic

/-!
# YAML scalars

A text is written plain only if it reads back as a text and holds nothing that the layout gives a
meaning. Then single quotes are tried, which can hold line breaks but no escapes, and double quotes
can hold everything.
-/

namespace FunctionManifest.Yaml

inductive Style where
  | plain
  | single
  | double
  deriving DecidableEq, Inhabited, Repr

/-! ## Texts that read as something else -/

section
open Text.Regular

def digit : Text.Regular := range '0' '9'

def digitOrBar : Text.Regular := orElse digit (char '_')

def sign : Text.Regular := optional (oneOf "+-")

/-- One or two digits below sixty, after a colon. -/
def sixtieth : Text.Regular := sequence [char ':', optional (range '0' '5'), digit]

def exponent : Text.Regular :=
  sequence [oneOf "eE", oneOf "+-", oneOrMore digit]

def boolean : Text.Regular :=
  words ["yes", "Yes", "YES", "no", "No", "NO", "true", "True", "TRUE", "false", "False", "FALSE",
    "on", "On", "ON", "off", "Off", "OFF"]

def float : Text.Regular :=
  choice [
    sequence [sign, digit, .many digitOrBar, char '.', .many digitOrBar, optional exponent],
    sequence [char '.', digit, .many digitOrBar, optional exponent],
    sequence [sign, digit, .many digitOrBar, oneOrMore sixtieth, char '.', .many digitOrBar],
    sequence [sign, char '.', words ["inf", "Inf", "INF"]],
    sequence [char '.', words ["nan", "NaN", "NAN"]]]

def integer : Text.Regular :=
  sequence [sign, choice [
    sequence [word "0b", oneOrMore (oneOf "01_")],
    sequence [char '0', oneOrMore (oneOf "01234567_")],
    char '0',
    sequence [range '1' '9', .many digitOrBar],
    sequence [word "0x", oneOrMore (oneOf "0123456789abcdefABCDEF_")],
    sequence [range '1' '9', .many digitOrBar, oneOrMore sixtieth]]]

def oneOrTwoDigits : Text.Regular := sequence [digit, optional digit]

def timeOfDay : Text.Regular :=
  sequence [
    orElse (oneOf "Tt") (oneOrMore (oneOf " \t")), oneOrTwoDigits, char ':', times 2 digit,
    char ':', times 2 digit, optional (sequence [char '.', .many digit]),
    optional (sequence [.many (oneOf " \t"),
      orElse (char 'Z')
        (sequence [oneOf "+-", oneOrTwoDigits, optional (sequence [char ':', times 2 digit])])])]

def timestamp : Text.Regular :=
  orElse
    (sequence [times 4 digit, char '-', times 2 digit, char '-', times 2 digit])
    (sequence [times 4 digit, char '-', oneOrTwoDigits, char '-', oneOrTwoDigits, timeOfDay])

def nothingWord : Text.Regular := words ["", "~", "null", "Null", "NULL"]

/-- Marks with a meaning of their own. -/
def mark : Text.Regular := words ["<<", "=", "!", "&", "*"]

end

/-- A reader would take the plain text for something else than a text. -/
def isAmbiguous (text : Text) : Bool :=
  text.chars?.any fun chars =>
    [boolean, float, integer, timestamp, nothingWord, mark].any (·.accepts chars)

/-! ## Letters with a meaning -/

/-- The code points of line breaks besides the usual one. -/
def rareBreaks : List Nat := [0x85, 0x2028, 0x2029]

/-- Breaks a line. -/
def isBreak (c : Letter) : Bool := c = '\n' || rareBreaks.contains c.code

/-- Ends a word of the layout. -/
def endsWord (c : Letter) : Bool :=
  c = ' ' || c = '\t' || c = '\r' || c.code = 0 || isBreak c

def wordEnds (rest : Text) : Bool := rest.head?.all endsWord

/-- Starts something other than a plain text. -/
def leadingMarks : Text := "#,[]\x7b\x7d&*!|>'\"%@`"

/-- What separates documents. -/
def documentMarks : List Text := ["---", "..."]

/-- The first letter, or the first few, have a meaning at the start of a text. -/
def startsMarked (text : Text) : Bool :=
  documentMarks.any (·.isPrefixOf text) ||
    match text with
    | [] => false
    | c :: rest =>
      leadingMarks.contains c || ((c = '?' || c = ':' || c = '-') && wordEnds rest)

/-- A colon at the end of a word, or a comment sign at the start of one. -/
def marksWithin : Text → Bool
  | a :: b :: rest =>
    (b = ':' && wordEnds rest) || (b = '#' && endsWord a) || marksWithin (b :: rest)
  | _ => false

/-- The letter prints in ASCII. -/
def isPlainLetter (c : Letter) : Bool := 0x20 ≤ c.code && c.code ≤ 0x7e

/-- Only a double-quoted text can hold the letter. -/
def needsEscape (c : Letter) : Bool := !(c = '\n' || isPlainLetter c)

def isGap (c : Letter) : Bool := c = ' ' || c = '\n'

/-- The first letter stands directly before the second, somewhere in the text. -/
def hasPair (first second : Letter) : Text → Bool
  | a :: b :: rest => (a = first && b = second) || hasPair first second (b :: rest)
  | _ => false

def isMultiline (text : Text) : Bool := text.any isBreak

/-- Nothing in the text has a meaning for the layout. -/
def canBePlain (text : Text) : Bool :=
  !(startsMarked text || marksWithin text || text.any needsEscape || isMultiline text ||
    text.head?.any isGap || text.getLast?.any isGap)

/-- Blanks next to a line break would be lost between single quotes. -/
def canBeSingle (text : Text) : Bool :=
  !(text.any needsEscape || hasPair ' ' '\n' text || hasPair '\n' ' ' text)

/-! ## Scalars -/

/-- The text of a scalar, and the name of its type when that is not the one of texts. -/
structure Scalar where
  text : Text
  type : String
  isText : Bool
  deriving Inhabited, Repr

/-- A float always has a point. -/
def floatText (x : Binary64) : Text :=
  match x with
  | .nan _ => ".nan"
  | .infinite negative => if negative then "-.inf" else ".inf"
  | x =>
    let text := x.text
    if text.contains '.' then text
    else text.flatMap fun c => if c = .char 'e' then ".0e" else [c]

/-- A simple key is on one line with its value. -/
def Scalar.isSimpleKey (scalar : Scalar) : Bool :=
  scalar.text.length + scalar.type.length < 128 && !scalar.text.isEmpty &&
    !isMultiline scalar.text

def Scalar.style (scalar : Scalar) (simpleKey : Bool) : Style :=
  let text := scalar.text
  let keyFits := !(simpleKey && (text.isEmpty || isMultiline text))
  if !(scalar.isText && isAmbiguous text) && keyFits && canBePlain text then .plain
  else if canBeSingle text && !(simpleKey && isMultiline text) then .single
  else .double

def Scalar.ofValue? : Value → Except Failure (Option Scalar)
  | .null => .ok (some ⟨"null", "!!null", false⟩)
  | .bool b => .ok (some ⟨if b then "true" else "false", "!!bool", false⟩)
  | .int n => do return some ⟨← intText n, "!!int", false⟩
  | .float x => .ok (some ⟨floatText x, "!!float", false⟩)
  | .text t => .ok (some ⟨t, "!!str", true⟩)
  | _ => .ok none

end FunctionManifest.Yaml
