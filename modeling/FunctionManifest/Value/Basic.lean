import FunctionManifest.Decimal.Binary64
import FunctionManifest.Failure

/-!
# Values

A value is an atom, a collection, or a reference to an object that is kept elsewhere. A collection
in a value is new: it becomes an object of its own as soon as it is kept. Atoms have no identity but
their content.
-/

namespace FunctionManifest

inductive Value where
  | null
  | bool (b : Bool)
  | int (n : Int)
  | float (x : Binary64)
  | text (t : Text)
  | list (items : List Value)
  | tuple (items : List Value)
  | mapping (entries : List (Value × Value))
  /-- The object at an address. -/
  | ref (address : Nat)

instance : Inhabited Value := ⟨.null⟩

namespace Value

mutual

/-- Two values are written alike. -/
def beq : Value → Value → Bool
  | .null, .null => true
  | .bool b, .bool c => b == c
  | .int m, .int n => m == n
  | .float x, .float y => x == y
  | .text s, .text t => s == t
  | .list items, .list items' => beqItems items items'
  | .tuple items, .tuple items' => beqItems items items'
  | .mapping entries, .mapping entries' => beqEntries entries entries'
  | .ref a, .ref b => a == b
  | _, _ => false

def beqItems : List Value → List Value → Bool
  | [], [] => true
  | v :: vs, w :: ws => beq v w && beqItems vs ws
  | _, _ => false

def beqEntries : List (Value × Value) → List (Value × Value) → Bool
  | [], [] => true
  | (k, v) :: rest, (k', v') :: rest' => beq k k' && beq v v' && beqEntries rest rest'
  | _, _ => false

end

instance : BEq Value := ⟨beq⟩

end Value

abbrev Entries := List (Value × Value)

/-- Arguments or attributes by name. -/
abbrev Fields := List (Text × Value)

/-- The most digits that an integer is read from or written in. -/
def digitLimit : Nat := 4300

def intText (n : Int) : Except Failure Text :=
  if digitLimit < Binary64.digitCount n.natAbs then .error .tooLongToWrite
  else
    let sign : Text := if n < 0 then "-" else ""
    .ok (sign ++ Text.ofNat n.natAbs)

namespace Value

/-- A mapping whose keys are texts. -/
def named (fields : Fields) : Value := .mapping (fields.map fun field => (.text field.1, field.2))

def texts (items : List Text) : Value := .list (items.map .text)

/-- The name of an atom's or a collection's type. -/
def type : Value → String
  | .null => "NoneType"
  | .bool _ => "bool"
  | .int _ => "int"
  | .float _ => "float"
  | .text _ => "str"
  | .list _ => "list"
  | .tuple _ => "tuple"
  | .mapping _ => "dict"
  | .ref _ => "object"

def isNull : Value → Bool
  | .null => true
  | _ => false

/-- The text, if the value is one. -/
def text? : Value → Option Text
  | .text t => some t
  | _ => none

/-- The value, unless it is null. -/
def given? : Value → Option Value
  | .null => none
  | v => some v

end Value

/-! ## Building fields -/

def field (name : String) (v : Value) : Fields := [(name, v)]

/-- The field, if there is a value for it. -/
def fieldIf (name : String) (v : Option Value) : Fields := (v.map (field name)).getD []

/-- The field, unless its value is null. -/
def given (name : String) (v : Value) : Fields := fieldIf name v.given?

end FunctionManifest
