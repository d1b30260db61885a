import FunctionManifest.Heap.Cell
import FunctionManifest.Language.Export

/-!
# The heap

Everything with an identity is kept at an address. The heap starts with what every source shares:
the names that can be called, the constants, and the registry that is current outside every scope.
-/

namespace FunctionManifest

structure Heap where
  cells : Array Cell
  scopes : Scopes Value
  /-- How many numbers that are none were made. -/
  undefined : Nat
  deriving Inhabited

/-! ## What every source shares -/

def Constant.cell : Constant → Cell
  | .reset => .reset
  | .bucketPicker => .prompt .bucketPicker
  | .databaseUrl => .param (.builtin "DATABASE_URL" "databaseURL")
  | .projectId => .param (.builtin "PROJECT_ID" "projectId")
  | .cloudProject => .param (.builtin "GCLOUD_PROJECT" "projectId")
  | .storageBucket => .param (.builtin "STORAGE_BUCKET" "storageBucket")

def Trigger.messagingApi : RequiredApi :=
  ⟨.text "pubsub.googleapis.com", .text "Needed for Pub/Sub triggers."⟩

def Trigger.schedulerApi : RequiredApi :=
  ⟨.text "cloudscheduler.googleapis.com", .text "Needed for scheduled functions."⟩

namespace Heap

/-- The tuple without items is one object. -/
def emptyTuple : Value := .ref 0

def defaultRegistry : Value := .ref 1

def messagingApi : Value := .ref 2

def schedulerApi : Value := .ref 3

def firstConstant : Nat := 4

def constant (c : Constant) : Value := .ref (firstConstant + Constant.all.idxOf c)

def firstBuiltin : Nat := firstConstant + Constant.all.length

def builtin (b : Builtin) : Value := .ref (firstBuiltin + Builtin.all.idxOf b)

def firstModule : Nat := firstBuiltin + Builtin.all.length

def exportedModule (name : String) : Value :=
  .ref (firstModule + Export.moduleNames.idxOf name)

/-- Functions that are known by their names only stand behind the modules. -/
def firstNative : Nat := firstModule + Export.moduleNames.length

def exported : Export → Value
  | .builtin b => builtin b
  | .constant c => constant c
  | .module name => exportedModule name
  | .native _ => .ref firstNative
  | .text t => .text t
  | .list items => .texts (items.map Text.ofString)

/-- A module with its name and what it has. -/
def moduleCell (name : String) : Cell :=
  .module (field "__name__" (.text name) ++
    (Export.ofModule name).map fun entry => (Text.ofString entry.1, exported entry.2))

def initialCells : List Cell :=
  [.tuple [], .registry .empty, .api Trigger.messagingApi, .api Trigger.schedulerApi] ++
    Constant.all.map Constant.cell ++ Builtin.all.map .builtin ++
    Export.moduleNames.map moduleCell ++ [.native "load_stack"]

def initial : Heap := ⟨initialCells.toArray, ⟨defaultRegistry, []⟩, 0⟩

/-! ## Looking up -/

def cell? (heap : Heap) : Value → Option Cell
  | .ref address => heap.cells[address]?
  | _ => none

/-- The value itself, or the collection that it refers to. -/
def content (heap : Heap) (v : Value) : Value :=
  match heap.cell? v with
  | some (.list items) => .list items
  | some (.tuple items) => .tuple items
  | some (.mapping entries) => .mapping entries
  | _ => v

/-- The name of a value's type. -/
def type (heap : Heap) (v : Value) : Text :=
  match heap.cell? v with
  | some cell => cell.type
  | none => v.type

/-- The way on into a value, unless the value is on the way already. -/
def enter? (way : List Nat) (v : Value) : Option (List Nat) :=
  match v with
  | .ref address => if address ∈ way then none else some (address :: way)
  | _ => some way

/-! ## Keeping -/

def allocate (heap : Heap) (cell : Cell) : Value × Heap :=
  (.ref heap.cells.size, { heap with cells := heap.cells.push cell })

def replace (heap : Heap) (address : Nat) (cell : Cell) : Heap :=
  { heap with cells := heap.cells.setIfInBounds address cell }

mutual

/-- Makes objects of the collections in a value. -/
def intern (heap : Heap) : Value → Value × Heap
  | .list items =>
    let (items, heap) := heap.internItems items
    heap.allocate (.list items)
  | .tuple [] => (emptyTuple, heap)
  | .tuple items =>
    let (items, heap) := heap.internItems items
    heap.allocate (.tuple items)
  | .mapping entries =>
    let (entries, heap) := heap.internEntries entries
    heap.allocate (.mapping entries)
  | v => (v, heap)

def internItems (heap : Heap) : List Value → List Value × Heap
  | [] => ([], heap)
  | v :: rest =>
    let (v, heap) := heap.intern v
    let (rest, heap) := heap.internItems rest
    (v :: rest, heap)

def internEntries (heap : Heap) : Entries → Entries × Heap
  | [] => ([], heap)
  | (k, v) :: rest =>
    let (k, heap) := heap.intern k
    let (v, heap) := heap.intern v
    let (rest, heap) := heap.internEntries rest
    ((k, v) :: rest, heap)

end

/-- A number that is none, told from all others. -/
def newUndefined (heap : Heap) : Value × Heap :=
  (.float (.nan (heap.undefined + 1)), { heap with undefined := heap.undefined + 1 })

/-- How deep a way into objects may be. What is nested deeper is as good as endless. -/
def depth : Nat := 1000

end Heap

end FunctionManifest
