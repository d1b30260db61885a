import FunctionManifest.Heap.Basic
import FunctionManifest.Json.Text

/-!
# Writing JSON

Each item and each member stands on a line of its own, two blanks deeper than what holds it. All
letters are written in ASCII. What leads back to itself cannot be written.
-/

namespace FunctionManifest.Json

/-- A new line at a depth. -/
def lineBreak (depth : Nat) : Text := .char '\n' :: List.replicate (2 * depth) ' '

/-- The parts on lines of their own between two brackets; only the brackets if there are none. -/
def bracketed (opening closing : Char) (depth : Nat) (parts : List Text) : Text :=
  if parts.isEmpty then [opening, closing]
  else
    .char opening :: lineBreak (depth + 1) ++
      Text.join (.char ',' :: lineBreak (depth + 1)) parts ++ lineBreak depth ++ [.char closing]

def floatText : Binary64 → Text
  | .nan _ => "NaN"
  | .infinite negative => if negative then "-Infinity" else "Infinity"
  | x => x.text

/-- Null, booleans and numbers. -/
def wordText? : Value → Option (Except Failure Text)
  | .null => some (.ok "null")
  | .bool b => some (.ok (if b then "true" else "false"))
  | .int n => some (intText n)
  | .float x => some (.ok (floatText x))
  | _ => none

/-- Names of members are texts, so words are quoted. -/
def memberName (heap : Heap) : Value → Except Failure Text
  | .text t => .ok (quoted .ascii t)
  | v =>
    match wordText? v with
    | some text => return quoted .ascii (← text)
    | none => .error (.badKey (shortType (heap.type v)))

/-- A value at a depth. The way has the addresses of the collections around it. -/
def writeFrom (heap : Heap) (fuel : Nat) (way : List Nat) (depth : Nat) (v : Value) :
    Except Failure Text :=
  match fuel with
  | 0 => .error (.endless "")
  | fuel + 1 =>
    match heap.content v, Heap.enter? way v with
    | .text t, _ => .ok (quoted .ascii t)
    | .list [], _ | .tuple [], _ => .ok (bracketed '[' ']' depth [])
    | .mapping [], _ => .ok (bracketed '\x7b' '\x7d' depth [])
    | .list items, some way | .tuple items, some way => do
      return bracketed '[' ']' depth (← items.mapM (writeFrom heap fuel way (depth + 1)))
    | .mapping entries, some way => do
      let members ← entries.mapM fun entry => do
        let name ← memberName heap entry.1
        return name ++ ": " ++ (← writeFrom heap fuel way (depth + 1) entry.2)
      return bracketed '\x7b' '\x7d' depth members
    | .list _, none | .tuple _, none | .mapping _, none => .error .circular
    | v, _ => (wordText? v).getD (.error (.notJson (shortType (heap.type v))))

def write (heap : Heap) (v : Value) : Except Failure Text := writeFrom heap Heap.depth [] 0 v

end FunctionManifest.Json
