import FunctionManifest.Language.Call
import FunctionManifest.Language.Term

/-!
# Evaluation

The value of a term in a session. Parts are evaluated from left to right, and the first failure ends
the evaluation.
-/

namespace FunctionManifest

open Eval

/-- What the names of variables stand for. -/
abbrev Variables := Text → Except Failure Value

/-- The attributes that a module has from its start, whatever it is. -/
def moduleStart (name : Text) : Fields :=
  field "__name__" (.text name) ++ field "__doc__" .null ++ field "__package__" .null ++
    field "__loader__" .null ++ field "__spec__" .null

/-- A number that is none is told from all others. -/
def newFloat (x : Binary64) : Eval Value :=
  match x with
  | .nan _ => onHeap (·.newUndefined)
  | x => pure (.float x)

/-- Small integers, and texts of at most one letter from the first range, are the same wherever they
are written. -/
def Term.isShared : Term → Bool
  | .int n => -5 ≤ n && n ≤ 256
  | .text [] => true
  | .text [c] => c.code < 0x100
  | _ => true

/-- What is written makes an atom of its own. -/
def Term.isFresh : Term → Bool
  | .int n => !(Term.int n).isShared
  | .text t => !(Term.text t).isShared
  | .float _ => true
  | _ => false

/-- A call that no written atom of its own can make true. -/
def neverIdentical (callee : Builtin) (arguments : List Term) : Bool :=
  callee = .identical && arguments.any Term.isFresh

mutual

def Term.evaluate (scope : Variables) : Term → Eval Value
  | .null => return .null
  | .bool b => return .bool b
  | .int n => return .int n
  | .float x => newFloat x
  | .text t => return .text t
  | .regex source => allocate (.regex source)
  | .list items => do intern (.list (← evaluateItems scope items))
  | .tuple items => do intern (.tuple (← evaluateItems scope items))
  | .mapping entries => do intern (.mapping (← evaluateEntries scope [] entries))
  | .record fields => do allocate (.record (Assoc.ofList (← evaluateFields scope fields)))
  | .module name file attributes => do
    let attributes ← evaluateFields scope attributes
    let file := (file.map fun file => field "__file__" (.text file)).getD []
    allocate (.module (Assoc.setAll (moduleStart name ++ file) attributes))
  | .unknown label => allocate (.unknown label [])
  | .callable label named => allocate (.callable label named [])
  | .variable name => MonadExcept.ofExcept (scope name)
  | .constant c => return Heap.constant c
  | .attribute target name => do getAttribute call (← target.evaluate scope) name
  | .method target name positional keywords => do
    let target ← target.evaluate scope
    let positional ← evaluateItems scope positional
    let keywords ← evaluateFields scope keywords
    callMethod target name positional (Assoc.ofList keywords)
  | .apply callee positional keywords => do
    let values ← evaluateItems scope positional
    let keywords ← evaluateFields scope keywords
    let v ← callBuiltin call callee values (Assoc.ofList keywords)
    return if neverIdentical callee positional then .bool false else v
  | .triggered trigger positional keywords function => do
    let positional ← evaluateItems scope positional
    let keywords ← evaluateFields scope keywords
    let decorator ← callBuiltin call (.trigger trigger) positional (Assoc.ofList keywords)
    call decorator [← allocate (.callable function true [])] []

def evaluateItems (scope : Variables) : List Term → Eval (List Value)
  | [] => return []
  | term :: rest => do
    let v ← term.evaluate scope
    return v :: (← evaluateItems scope rest)

def evaluateFields (scope : Variables) : List (Text × Term) → Eval Fields
  | [] => return []
  | (name, term) :: rest => do
    let v ← term.evaluate scope
    return (name, v) :: (← evaluateFields scope rest)

def evaluateEntries (scope : Variables) (before : Entries) : List (Term × Term) → Eval Entries
  | [] => return before
  | (key, term) :: rest => do
    let key ← key.evaluate scope
    let v ← term.evaluate scope
    evaluateEntries scope (← reading (·.putEntry before key v)) rest

end

end FunctionManifest
