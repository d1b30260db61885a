import FunctionManifest.Heap.Basic
import FunctionManifest.Yaml.Scalar

/-!
# Nodes of a YAML document

A value as a tree of scalars and collections. A collection that is met again is not written again:
an alias refers to the place where it was met first.
-/

namespace FunctionManifest.Yaml

/-- Collections that can be referred to have the address of their object. -/
inductive Node where
  | scalar (s : Scalar)
  | list (address : Option Nat) (items : List Node)
  | mapping (address : Option Nat) (entries : List (Node × Node))
  | alias (address : Nat)

namespace Node

instance : Inhabited Node := ⟨.list none []⟩

/-- The address by which a value can be referred to. Atoms and the tuple without items are written
wherever they stand. -/
def address? : Value → Option Nat
  | .ref address => if Heap.emptyTuple == .ref address then none else some address
  | _ => none

/-- Nodes are made with the addresses of the collections that were met before. -/
abbrev Making := StateT (List Nat) (Except Failure)

def ofValueFrom (heap : Heap) (fuel : Nat) (v : Value) : Making Node :=
  match fuel with
  | 0 => throw (.endless "")
  | fuel + 1 => do
    let address := address? v
    match address.filter (← get).contains with
    | some address => return .alias address
    | none =>
      let meet : Making Unit := modify (address.toList ++ ·)
      match heap.content v with
      | .list items | .tuple items => do
        meet
        return .list address (← items.mapM (ofValueFrom heap fuel))
      | .mapping entries => do
        meet
        let nodes ← entries.mapM fun entry => do
          let key ← ofValueFrom heap fuel entry.1
          return (key, ← ofValueFrom heap fuel entry.2)
        return .mapping address nodes
      | v => do
        match ← Scalar.ofValue? v with
        | some s => return .scalar s
        | none => throw .notYaml

def ofValue (heap : Heap) (v : Value) : Except Failure Node :=
  (ofValueFrom heap Heap.depth v).run' []

/-! ## Anchors -/

mutual

/-- What aliases refer to, in the order in which they stand. -/
def aliases : Node → List Nat
  | .scalar _ => []
  | .alias address => [address]
  | .list _ items => aliasesOfItems items
  | .mapping _ entries => aliasesOfEntries entries

def aliasesOfItems : List Node → List Nat
  | [] => []
  | node :: rest => node.aliases ++ aliasesOfItems rest

def aliasesOfEntries : List (Node × Node) → List Nat
  | [] => []
  | (key, node) :: rest => key.aliases ++ node.aliases ++ aliasesOfEntries rest

end

end Node

/-- The objects that have a name in a document, in the order in which they got it. -/
structure Anchors where
  addresses : List Nat
  deriving Inhabited

namespace Anchors

def ofNode (node : Node) : Anchors := ⟨node.aliases.eraseDups⟩

/-- A name has a number of at least three digits that counts from one. -/
def nameAt (index : Nat) : Text :=
  let digits := Text.ofNat (index + 1)
  let zeros : Text := List.replicate (3 - digits.length) '0'
  "id" ++ zeros ++ digits

def name? (anchors : Anchors) (address : Nat) : Option Text :=
  (anchors.addresses.findIdx? (· == address)).map nameAt

end Anchors

end FunctionManifest.Yaml
