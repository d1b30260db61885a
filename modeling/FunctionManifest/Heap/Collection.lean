import FunctionManifest.Heap.Equality

/-!
# Collections

What values yield when they are gone through, counted, searched, joined, or made into a mapping.
-/

namespace FunctionManifest

/-- A letter on its own. -/
def Value.letter (c : Letter) : Value := .text [c]

namespace Heap

/-- The items that a value yields one after the other. -/
def items? (heap : Heap) (v : Value) : Option (List Value) :=
  match heap.content v with
  | .list items | .tuple items => some items
  | .mapping entries => some (entries.map (·.1))
  | .text t => some (t.map Value.letter)
  | v =>
    match heap.cell? v with
    | some (.registry r) => some r.entries
    | _ => none

def items (heap : Heap) (v : Value) : Except Failure (List Value) :=
  match heap.items? v with
  | some items => .ok items
  | none => .error (.notIterable (heap.type v))

/-- The entries, if the value is a mapping. -/
def entries? (heap : Heap) (v : Value) : Option Entries :=
  match heap.content v with
  | .mapping entries => some entries
  | _ => none

/-- How many items a value has. -/
def size? (heap : Heap) (v : Value) : Option Nat := (heap.items? v).map (·.length)

/-- Null, zeros and what has no items are not. -/
def isTruthy (heap : Heap) (v : Value) : Bool :=
  match v with
  | .null => false
  | .bool b => b
  | .int n => n != 0
  | .float x => !x.isInt 0
  | v => (heap.size? v).all (· != 0)

/-! ## Joining -/

/-- The items as texts, or the first that is none. -/
def textItems (heap : Heap) (index : Nat) : List Value → Except Failure (List Text)
  | [] => .ok []
  | .text t :: rest => do return t :: (← heap.textItems (index + 1) rest)
  | v :: _ => .error (.notText index (heap.type v))

/-- The texts joined with a separator. -/
def joined (heap : Heap) (separator : Text) (items : List Value) : Except Failure Text := do
  return Text.join separator (← heap.textItems 0 items)

/-! ## Mappings -/

/-- An item that is an entry by itself: a key and a value. -/
def entryAt (heap : Heap) (index : Nat) (v : Value) : Except Failure (Value × Value) :=
  match heap.items? v with
  | none => .error (.notEntry index)
  | some [key, v] => .ok (key, v)
  | some items => .error (.notPair index items.length)

def entriesFrom (heap : Heap) (index : Nat) (before : Entries) : List Value → Except Failure Entries
  | [] => .ok before
  | item :: rest => do
    let (key, v) ← heap.entryAt index item
    heap.entriesFrom (index + 1) (← heap.putEntry before key v) rest

/-- A mapping of the same entries, or of items that are entries each. -/
def dictionary (heap : Heap) (v : Value) : Except Failure Entries :=
  match heap.entries? v with
  | some entries => .ok entries
  | none => do heap.entriesFrom 0 [] (← heap.items v)

/-- A key and a value in one. -/
def pair (heap : Heap) (v : Value) : Except Failure (Value × Value) :=
  match heap.items? v with
  | none => .error (.notUnpackable (heap.type v))
  | some [a, b] => .ok (a, b)
  | some items => .error (if items.length < 2 then .fewItems items.length else .manyItems)

end Heap

end FunctionManifest
