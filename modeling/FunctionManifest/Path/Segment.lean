import FunctionManifest.Text.Separated

/-!
# Path segments

A template is a path whose segments may be captures: `{name}` and `{name=*}` bind one segment of a
path, `{name=**}` binds several. Every other segment stands for itself.
-/

namespace FunctionManifest

inductive Segment where
  | literal (text : Text)
  | single (name : Text)
  | multi (name : Text)
  deriving DecidableEq, Inhabited, Repr

namespace Segment

/-- A capture's name has none of the characters that divide a template. -/
def isNameLetter (c : Letter) : Bool := c ≠ '/' && c ≠ '{' && c ≠ '}' && c ≠ '='

/-- What follows the name of a capture: how many segments it binds. A line break may end it. -/
def captureOf (name : Text) (ending : Text) : Option Segment :=
  if ending ∈ [Text.ofString "\x7d", "\x7d\n", "=*\x7d", "=*\x7d\n"] then some (.single name)
  else if ending ∈ [Text.ofString "=**\x7d", "=**\x7d\n"] then some (.multi name)
  else none

/-- The capture that a whole part denotes. -/
def capture? (part : Text) : Option Segment :=
  match part with
  | .char '{' :: body =>
    let name := body.takeWhile isNameLetter
    if name = [] then none else captureOf name (body.dropWhile isNameLetter)
  | _ => none

def ofPart (part : Text) : Segment := (capture? part).getD (.literal part)

def captureName? : Segment → Option Text
  | .literal _ => none
  | .single name | .multi name => some name

def isWildcard (text : Text) : Bool := text.contains '*'

def isMultiWildcard (text : Text) : Bool := text = "**"

/-- The segment may stand for several segments of a path. -/
def spansMany : Segment → Bool
  | .literal text => isMultiWildcard text
  | .single _ => false
  | .multi _ => true

/-- A capture of several parts is taken for the text that it is written as. -/
def demoted (part : Text) : Segment → Segment
  | .multi _ => .literal part
  | segment => segment

end Segment

/-- The segments of a path. Slashes at its ends do not count. -/
def splitPath (path : Text) : List Text :=
  let inner := Text.trim (· = '/') path
  if inner = [] then [] else Text.split '/' inner

end FunctionManifest
