import FunctionManifest.Heap.Basic

/-!
# Equality of values

Numbers are compared as numbers and mappings without regard to order. Objects with frozen parts are
equal if they are of one type and their parts are equal; everything else with an identity is equal
only to itself. In a collection an item is also found by its identity, which matters for a number
that is none. Equal values that can be keys have the same hash.
-/

namespace FunctionManifest

/-- A value as a number, a boolean counting as zero or one. -/
def Value.number? : Value → Option (Int ⊕ Binary64)
  | .bool b => some (.inl (if b then 1 else 0))
  | .int n => some (.inl n)
  | .float x => some (.inr x)
  | _ => none

def sameNumber : Int ⊕ Binary64 → Int ⊕ Binary64 → Bool
  | .inl m, .inl n => m == n
  | .inl m, .inr y => y.isInt m
  | .inr x, .inl n => x.isInt n
  | .inr x, .inr y => x.same y

/-- Atoms are compared by content. -/
def Value.sameAtom (v w : Value) : Bool :=
  match v, w with
  | .null, .null => true
  | .text s, .text t => s == t
  | v, w =>
    match v.number?, w.number? with
    | some m, some n => sameNumber m n
    | _, _ => false

/-- Two values are one object. Atoms are one if they are written alike and of one type. -/
def Value.identical : Value → Value → Bool
  | .null, .null => true
  | .bool b, .bool c => b == c
  | .int m, .int n => m == n
  | .float x, .float y => x == y
  | .text s, .text t => s == t
  | .ref a, .ref b => a == b
  | _, _ => false

/-- What has parts that are compared one by one. -/
inductive Shape where
  | list
  | tuple
  | record
  | pattern
  | regex
  | frozen (type : Text)
  deriving DecidableEq, Inhabited, Repr

/-- A value by what it is compared by. -/
inductive Comparable where
  | atom (v : Value)
  | parts (shape : Shape) (items : List Value)
  | entries (entries : Entries)
  | identity (address : Nat)
  deriving Inhabited

namespace Heap

def comparable (heap : Heap) (v : Value) : Comparable :=
  match v with
  | .list items => .parts .list items
  | .tuple items => .parts .tuple items
  | .mapping entries => .entries entries
  | .ref address =>
    match heap.cells[address]? with
    | some (.list items) => .parts .list items
    | some (.tuple items) => .parts .tuple items
    | some (.mapping entries) => .entries entries
    | some (.record fields) =>
      .parts .record [.mapping (fields.map fun field => (.text field.1, field.2))]
    | some (.pattern _ segments) => .parts .pattern [segments]
    | some (.regex source) => .parts .regex [.text source]
    | some cell =>
      match cell.parts? with
      | some parts => .parts (.frozen cell.type) (parts.map (·.2))
      | none => .identity address
    | none => .identity address
  | v => .atom v

/-- Two values are one object. A regular expression is one object for each source. -/
def isOne (heap : Heap) (v w : Value) : Bool :=
  match heap.cell? v, heap.cell? w with
  | some (.regex source), some (.regex source') => source == source'
  | _, _ => v.identical w

section

variable (same : Value → Value → Except Failure Bool)

/-- An item of a collection equals another one, or is that one. -/
def sameItem (v w : Value) : Except Failure Bool :=
  if v.identical w then .ok true else same v w

def sameItems : List Value → List Value → Except Failure Bool
  | [], [] => .ok true
  | v :: vs, w :: ws => do
    if ← sameItem same v w then sameItems vs ws else return false
  | _, _ => .ok false

/-- The entry has an equal one among the others. -/
def hasEntry (entry : Value × Value) : Entries → Except Failure Bool
  | [] => .ok false
  | other :: rest => do
    if ← sameItem same entry.1 other.1 then sameItem same entry.2 other.2
    else hasEntry entry rest

def sameEntries (others : Entries) : Entries → Except Failure Bool
  | [] => .ok true
  | entry :: rest => do
    if ← hasEntry same entry others then sameEntries others rest else return false

end

/-- Equality. What never ends is stopped. -/
def sameFrom (heap : Heap) (fuel : Nat) (v w : Value) : Except Failure Bool :=
  match fuel with
  | 0 => .error (.endless " in comparison")
  | fuel + 1 =>
    match heap.comparable v, heap.comparable w with
    | .atom v, .atom w => .ok (v.sameAtom w)
    | .identity a, .identity b => .ok (a == b)
    | .parts shape items, .parts shape' items' =>
      if shape = shape' && items.length == items'.length then
        sameItems (heap.sameFrom fuel) items items'
      else .ok false
    | .entries entries, .entries entries' =>
      if entries.length == entries'.length then
        sameEntries (heap.sameFrom fuel) entries' entries
      else .ok false
    | _, _ => .ok false

def same (heap : Heap) (v w : Value) : Except Failure Bool := heap.sameFrom depth v w

/-- A value is found in a collection. -/
def sameInside (heap : Heap) (v w : Value) : Except Failure Bool := sameItem heap.same v w

/-! ## Keys -/

/-- The modulus by which numbers are hashed. -/
def hashModulus : Nat := Nat.pow 2 61 - 1

/-- The hash of a number of a sign and a magnitude. One hash is not used. -/
def numberHash (negative : Bool) (magnitude : Nat) : Int :=
  let reduced : Int := (magnitude % hashModulus : Nat)
  let hash := if negative then -reduced else reduced
  if hash = -1 then -2 else hash

/-- A power of two below the modulus that has the same remainder. -/
def powerRemainder (power : Int) : Nat := Nat.pow 2 (power % 61).toNat

def floatHash (x : Binary64) : Value :=
  match x with
  | .nan identity => .float (.nan identity)
  | .infinite negative => .int (if negative then -314159 else 314159)
  | .finite negative significand power =>
    .int (numberHash negative (significand * powerRemainder power))

/-- What the hash of a value is made of: values have one hash if it is the same. -/
def hashFrom (heap : Heap) (fuel : Nat) (v : Value) : Except Failure Value :=
  match fuel with
  | 0 => .error (.endless " while calling a Python object")
  | fuel + 1 =>
    match heap.comparable v with
    | .atom (.bool b) => .ok (.int (if b then 1 else 0))
    | .atom (.int n) => .ok (.int (numberHash (n < 0) n.natAbs))
    | .atom (.float x) => .ok (floatHash x)
    | .atom (.text []) => .ok (.int 0)
    | .atom v => .ok v
    | .entries _ => .error (.unhashable "dict")
    | .parts .list _ => .error (.unhashable "list")
    | .parts .record _ => .error (.unhashable "types.SimpleNamespace")
    | .parts .pattern [segments] => heap.hashFrom fuel segments
    | .parts _ items => do return .tuple (← items.mapM (heap.hashFrom fuel))
    | .identity address => .ok (.ref address)

def hash (heap : Heap) (v : Value) : Except Failure Value := heap.hashFrom depth v

/-- The value can be a key. -/
def checkKey (heap : Heap) (v : Value) : Except Failure Unit := do
  let _ ← heap.hash v

/-- Two keys are one. -/
def sameKey (heap : Heap) (v w : Value) : Bool :=
  match heap.sameInside v w with
  | .ok same => same
  | .error _ => false

def putEntry (heap : Heap) (entries : Entries) (key v : Value) : Except Failure Entries := do
  heap.checkKey key
  return Assoc.putBy heap.sameKey entries key v

def lookEntry (heap : Heap) (entries : Entries) (key : Value) : Except Failure (Option Value) := do
  heap.checkKey key
  return Assoc.lookBy heap.sameKey entries key

end Heap

end FunctionManifest
