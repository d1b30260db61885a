import FunctionManifest.Heap.Collection
import FunctionManifest.Heap.Stored
import FunctionManifest.Source.Project

/-!
# Members and groups

What can be found in a namespace, and which of its values are looked into. A module is a group only
if it belongs to the root: by its name, or because its file lies in the root's directory and was not
installed there.
-/

namespace FunctionManifest

/-- A name with its value, or a name that is listed and not there. -/
inductive Member where
  | found (name : Text) (value : Value)
  | absent (failure : Failure)
  deriving Inhabited

def isPublic (name : Text) : Bool := name.head? != some (.char '_')

def publicMembers (fields : Fields) : List Member :=
  (fields.filter fun field => isPublic field.1).map fun field => .found field.1 field.2

/-- Only members under a text can be named. -/
def namedEntries (entries : Entries) : List Member :=
  entries.filterMap fun
    | (.text name, v) => some (.found name v)
    | _ => none

namespace Heap

/-- What every module has and no walk looks into. -/
def innerNames : List Text :=
  ["__annotations__", "__class__", "__delattr__", "__dir__", "__eq__", "__format__", "__ge__",
    "__getattribute__", "__gt__", "__hash__", "__init__", "__init_subclass__", "__le__", "__lt__",
    "__ne__", "__new__", "__reduce__", "__reduce_ex__", "__repr__", "__setattr__", "__sizeof__",
    "__str__", "__subclasshook__"]

/-- A member that a module lists. -/
def listedMember (heap : Heap) (module name : Value) : Member :=
  match name with
  | .text name =>
    match heap.stored? module name with
    | some v => .found name v
    | none =>
      if innerNames.contains name then .found name .null else .absent (heap.missing module name)
  | v => .absent (.notAttributeName (heap.type v))

/-- A module lists its members, or else has the public ones. -/
def moduleMembers (heap : Heap) (module : Value) (attributes : Fields) : List Member :=
  match (Assoc.get? attributes (Text.ofString "__all__")).bind Value.given? with
  | none => publicMembers attributes
  | some listed =>
    match heap.items listed with
    | .ok names => names.map (heap.listedMember module)
    | .error failure => [.absent failure]

/-- The members of a module, a mapping or a record. Nothing else has any. -/
def members (heap : Heap) (v : Value) : List Member :=
  match heap.cell? v with
  | some (.module attributes) => heap.moduleMembers v attributes
  | some (.record fields) => publicMembers fields
  | some (.mapping entries) => namedEntries entries
  | _ => []

end Heap

/-- What decides whether a module belongs to the root of a walk. -/
structure Root where
  name : Value
  directory : Option Location
  deriving Inhabited

/-- The file that an object says it comes from. What says nothing is no file. -/
def fileOf? (heap : Heap) (v : Value) : Except Failure (Option Text) :=
  match heap.stored? v "__file__" with
  | none => .ok none
  | some (.text file) => .ok (if file = [] then none else some file)
  | some v => if heap.isTruthy v then .error (.notFileName (shortType (heap.type v))) else .ok none

/-- The file lies in the directory, and not among installed ones. -/
def isProjectFile (project : Project) (directory : Location) (file : Text) :
    Except Failure Bool := do
  let location ← project.resolve? project.base file
  return !location.isInstalled && location.isWithin directory

/-- The object comes from a file that lies in the directory. -/
def comesFrom (heap : Heap) (project : Project) (directory : Location) (v : Value) :
    Except Failure Bool := do
  match ← fileOf? heap v with
  | some file => isProjectFile project directory file
  | none => return false

namespace Heap

/-- A module always has a name, unless it was taken away. -/
def moduleName (heap : Heap) (module : Value) : Except Failure Value :=
  match heap.stored? module "__name__" with
  | some name => .ok name
  | none => .error (heap.missing module "__name__")

/-- A namespace that is no module has no name. -/
def rootName (heap : Heap) (v : Value) : Except Failure Value :=
  match heap.cell? v with
  | some (.module _) => heap.moduleName v
  | _ => .ok (.text [])

/-- The directory of the file that an object comes from. -/
def directoryOf? (heap : Heap) (project : Project) (v : Value) :
    Except Failure (Option Location) := do
  match ← fileOf? heap v with
  | some file => return some (← project.resolve? project.base file).parent
  | none => return none

def rootOf (heap : Heap) (project : Project) (v : Value) : Except Failure Root := do
  let name ← heap.rootName v
  return ⟨name, ← heap.directoryOf? project v⟩

/-- A name with a point after it. -/
def dotted (heap : Heap) : Value → Except Failure Text
  | .text name => .ok (name ++ ".")
  | v =>
    match heap.content v with
    | .list _ | .tuple _ => .error (.notConcatenated (heap.type v))
    | _ => .error (.noOperation "+" (heap.type v) "str")

/-- The module's name is below that of the root. -/
def isBelow (heap : Heap) (root : Root) (name : Value) : Except Failure Bool :=
  match name with
  | .text name => do return (← heap.dotted root.name).isPrefixOf name
  | v => .error (heap.missing v "startswith")

def owns (heap : Heap) (project : Project) (root : Root) (module : Value) :
    Except Failure Bool := do
  if ← heap.isBelow root (← heap.moduleName module) then return true
  match root.directory with
  | some directory => comesFrom heap project directory module
  | none => return false

/-- The address of a group, if the value is one. -/
def group? (heap : Heap) (project : Project) (root : Root) (v : Value) :
    Except Failure (Option Nat) :=
  match v, heap.cell? v with
  | .ref address, some (.module _) => do
    return if ← heap.owns project root v then some address else none
  | .ref address, some (.record _) | .ref address, some (.mapping _) => .ok (some address)
  | _, _ => .ok none

end Heap

end FunctionManifest
