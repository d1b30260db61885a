import FunctionManifest.Heap.Unfolding
import FunctionManifest.Param.Reading
import FunctionManifest.Source.Project

/-!
# Sessions

The state that sources and scripts act on: the heap, the environment, the project, the modules that
are loaded, and the log. An action keeps its effects also when it fails.
-/

namespace FunctionManifest

inductive LogLevel where
  | debug
  | info
  | warning
  deriving DecidableEq, Inhabited, Repr

def LogLevel.label : LogLevel → String
  | .debug => "DEBUG"
  | .info => "INFO"
  | .warning => "WARNING"

structure LogEntry where
  level : LogLevel
  logger : String
  text : Text
  deriving Inhabited, Repr

def LogEntry.line (entry : LogEntry) : Text :=
  entry.level.label ++ " " ++ entry.logger ++ ": " ++ entry.text

/-- Where the submodules of a package are looked for. Directories without a package file are
gathered along the path of the parent, and again whenever that path has changed. -/
inductive PackagePath where
  | fixed (places : List Location)
  | gathered (parent places : List Location)
  deriving DecidableEq, Inhabited, Repr

/-- What was declared, and the name that it had as a param or a secret. -/
structure Declaration where
  object : Value
  name : Option Text
  deriving Inhabited

/-- A registry that was changed, and the one that declarations went to at that time. What was not
declared in it was cleared. -/
structure RegistryChange where
  address : Nat
  current : Value
  declared : Option Declaration
  deriving Inhabited

structure Session where
  heap : Heap
  environment : Environment
  project : Project
  /-- The loaded modules by name, with their addresses. -/
  loaded : List (Text × Nat)
  /-- The packages among the modules, by address. -/
  packages : List (Nat × PackagePath)
  /-- The imported modules whose files are running. -/
  starting : List Nat
  searchPath : List Location
  /-- The modules whose files began to run, with the files. -/
  executed : List (Text × Location)
  /-- The registries that were changed, each time they were. -/
  changes : List RegistryChange
  /-- The attributes that were set, with the addresses of their objects, each time they were. -/
  settings : List (Nat × Text)
  log : List LogEntry
  deriving Inhabited

/-- A session in which nothing has happened. -/
def Session.fresh (project : Project) (environment : Environment) : Session :=
  { heap := .initial, environment, project, loaded := [], packages := [], starting := []
    searchPath := [], executed := [], changes := [], settings := [], log := [] }

abbrev Eval := ExceptT Failure (StateM Session)

/-- Calls a value with arguments by position and by keyword. -/
abbrev Caller := Value → List Value → Fields → Eval Value

namespace Eval

def heap : Eval Heap := return (← get).heap

def modifyHeap (change : Heap → Heap) : Eval Unit :=
  modify fun session => { session with heap := change session.heap }

/-- A change of the heap that also gives something. -/
def onHeap {α : Type} (change : Heap → α × Heap) : Eval α := do
  let (a, heap) := change (← Eval.heap)
  modifyHeap fun _ => heap
  return a

/-- What can be read off the heap, or the failure to do so. -/
def reading {α : Type} (read : Heap → Except Failure α) : Eval α := do
  MonadExcept.ofExcept (read (← heap))

def allocate (cell : Cell) : Eval Value := onHeap (·.allocate cell)

def intern (v : Value) : Eval Value := onHeap (·.intern v)

def cell? (v : Value) : Eval (Option Cell) := return (← heap).cell? v

def replace (address : Nat) (cell : Cell) : Eval Unit := modifyHeap (·.replace address cell)

def log (level : LogLevel) (logger : String) (text : Text) : Eval Unit :=
  modify fun session => { session with log := session.log ++ [⟨level, logger, text⟩] }

/-- The result of a reading, its warnings logged. -/
def ofReading (reading : Reading) : Eval Value := do
  for warning in reading.warnings do
    log .warning "funcstack.params" warning
  MonadExcept.ofExcept reading.result

/-- What declarations go to. -/
def currentRegistry : Eval Value := return (← heap).scopes.current

/-- Enters a scope for what is given, or else for a new registry. -/
def enterRegistry (given : Option Value) : Eval Value := do
  let target ← match given with
    | some v => pure v
    | none => allocate (.registry .empty)
  modifyHeap fun heap => { heap with scopes := heap.scopes.enter target }
  return target

/-- Leaves the innermost scope. -/
def leaveRegistry : Eval Unit :=
  modifyHeap fun heap => { heap with scopes := heap.scopes.leave }

end Eval

/-- An action that keeps its failure as a result. -/
def attempted {α : Type} (action : Eval α) : Eval (Except Failure α) := ExceptT.lift action.run

/-- Runs an action, and another one after it however it ends. -/
def ensuring {α : Type} (action : Eval α) (after : Eval Unit) : Eval α := do
  let result ← attempted action
  after
  MonadExcept.ofExcept result

end FunctionManifest
