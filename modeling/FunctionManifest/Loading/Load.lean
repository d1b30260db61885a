import FunctionManifest.Discovery.Walk
import FunctionManifest.Loading.Import

/-!
# Loading function sources

A source is run as a module of its own, in a registry of its own. Afterwards the search path is as
before, and the modules that came from the source's directory are forgotten. What its functions,
params and required APIs make up is a stack.
-/

namespace FunctionManifest

open Eval

def loaderLog : String := "funcstack.loader"

/-! ## Running a source -/

/-- The statements of an entry file. A mark at its start is no statement. -/
def entryStatements : Body → Except Failure (List Statement)
  | .statements true _ => .error .badSyntax
  | .statements false statements => .ok statements
  | .bytes bytes =>
    match Text.Utf8.decode bytes with
    | .ok _ => .ok []
    | .error fault => .error (.undecodable fault)

def hasEnding (name ending : Text) : Bool := ending.isSuffixOf name

/-- Only files of these kinds can be modules. -/
def isModuleFile (name : Text) : Bool :=
  [".py", ".pyc", ".so"].any fun (ending : String) => hasEnding name ending

/-- The module of this name, or one below it. -/
def isOwned (owner name : Text) : Bool := name == owner || (owner ++ ".").isPrefixOf name

/-- The entry file of a source, as it was read. -/
structure Entry where
  file : Location
  isPackage : Bool
  body : Body
  statements : List Statement
  tree : Node
  deriving Inhabited

namespace Entry

def directory (entry : Entry) : Location := entry.file.parent

/-- The name of the entry's module. -/
def name (entry : Entry) : Text := loadedName entry.file entry.isPackage

/-- The directory has to be put on the search path. A package is found without it. -/
def isNew (entry : Entry) (searchPath : List Location) : Bool :=
  !entry.isPackage && !searchPath.contains entry.directory

/-- Where the submodules of a package are looked for. -/
def path? (entry : Entry) : Option PackagePath :=
  if entry.isPackage then some (.fixed [entry.directory]) else none

end Entry

/-- The entry file that a value stands for. -/
def entryFileOf (v : Value) : Eval EntryFile := do
  match v with
  | .text path => return .path path
  | v =>
    let session ← get
    let (shown, _) := (printed call v).run.run session
    return .other (session.heap.type v) shown

/-- Finds the entry file of a source and reads it. -/
def readEntry (source : Text) (entryFile : Value) : Eval Entry := do
  let project := (← get).project
  let target ← MonadExcept.ofExcept (project.resolve? project.base source)
  let (file, isPackage) ←
    MonadExcept.ofExcept (resolveEntry project target (← entryFileOf entryFile))
  let body := (project.body? file).getD (.bytes [])
  let statements ← MonadExcept.ofExcept (entryStatements body)
  let tree ← MonadExcept.ofExcept (sourceTree statements)
  return { file, isPackage, body, statements, tree }

/-- What a load added: its module, those below it, and those that came from its directory. -/
def isAdded (before session : Session) (entry : Entry) (module : Text × Nat) :
    Except Failure Bool :=
  if isOwned entry.name module.1 then .ok true
  else if Assoc.contains before.loaded module.1 then .ok false
  else comesFrom session.heap session.project entry.directory (.ref module.2)

/-- Forgets what a load added. -/
def forgetAdded (before : Session) (entry : Entry) : Eval Unit := do
  let session ← get
  let left ← MonadExcept.ofExcept (session.loaded.filterM fun module => do
    return !(← isAdded before session entry module))
  set { session with loaded := left }

/-- The entry of a source runs as a coroutine, which cannot end by this failure. -/
def coroutineFailure (failure : Failure) : Failure :=
  if failure.kind.label = "StopIteration" then
    .plain (.named "RuntimeError") "coroutine raised StopIteration"
  else failure

/-- Runs the statements of an entry file in its module. -/
def runEntry (entry : Entry) (address : Nat) : Eval Unit := do
  MonadExcept.ofExcept (checkCompiles entry.tree (moduleFormat entry.tree))
  match entry.body with
  | .bytes _ => pure ()
  | .statements .. => runBegins entry.name entry.file
  runStatements (importModule (← importDepth)) address entry.statements

def announce (entry : Entry) : Eval Unit := do
  log .debug loaderLog ("Loading " ++ (← get).project.written entry.file ++ " as " ++
    (moduleFormat entry.tree).label ++ " module " ++ Text.quoted entry.name)

/-- Makes way for the module of the entry: what was loaded under its name is forgotten, and its
directory comes first on the search path. -/
def makeWay (entry : Entry) (session : Session) : Session :=
  { session with
    loaded := session.loaded.filter fun module => !isOwned entry.name module.1
    searchPath :=
      if entry.isNew session.searchPath then entry.directory :: session.searchPath
      else session.searchPath }

/-- Makes the module of an entry file, which has not run yet. -/
def startEntry (entry : Entry) : Eval Nat := do
  let written := (← get).project.written entry.file
  announce entry
  if !isModuleFile entry.file.name then throw (.noImportSpec written)
  modify (makeWay entry)
  if hasEnding entry.file.name ".so" then throw (.unloadable written)
  addModule entry.name (if entry.isPackage then entry.name else []) (some entry.file) entry.path?

/-- Undoes what a load did to the search path and to the loaded modules. -/
def cleanUp (before : Session) (entry : Entry) : Eval Unit := do
  if entry.isNew before.searchPath then
    modify fun session =>
      { session with searchPath := session.searchPath.erase entry.directory }
  forgetAdded before entry

/-- Loads an entry file and gives its module. -/
def loadEntry (entry : Entry) : Eval Nat := do
  let before ← get
  let address ← startEntry entry
  try
    ensuring (runEntry entry address) (cleanUp before entry)
  catch failure => throw (coroutineFailure failure)
  return address

/-- Loads the source at a path and gives its module. -/
def loadModule (source : Text) (entryFile : Value) : Eval Nat := do
  loadEntry (← readEntry source entryFile)

/-- The module comes from the project. A package without a file always does. -/
def isOfProject (session : Session) (module : Text × Nat) : Bool :=
  match fileOf? session.heap (.ref module.2) with
  | .ok (some file) =>
    (session.project.resolve session.project.base file).isWithin session.project.home
  | _ => true

/-- The names of the project's modules that are still loaded, sorted. -/
def remainingModules (session : Session) : List Text :=
  ((session.loaded.filter (isOfProject session)).map (·.1)).mergeSort fun a b =>
    !List.lex (b.map Letter.code) (a.map Letter.code) fun m n => m < n

/-! ## Stacks -/

/-- A stack with the function behind each of its keys. -/
structure LoadedStack where
  stack : Value
  handlers : Fields
  deriving Inhabited

/-- Runs an action in a new registry, which it is given. -/
def inNewRegistry {α : Type} (action : Value → Eval α) : Eval α := do
  let registry ← enterRegistry none
  ensuring (action registry) leaveRegistry

/-- Collects by asking endpoints, whatever they are, for themselves with an entry point. -/
def collector : Collector Eval :=
  { deployed := fun endpoint entryPoint =>
      attempted (callAttribute call endpoint "with_entry_point" [.text entryPoint])
    requiredApis := fun apis => attempted (reading (·.items apis))
    note := fun key => log .debug loaderLog ("Discovered endpoint " ++ Text.quoted key) }

/-- What the walk from a value comes to. -/
def collectFrom (groups : Text) (v : Value) : Eval Collection := do
  let session ← get
  (session.heap.discover session.project groups v).collect collector

/-- The endpoint with the platform of its function, or else the configured one. -/
def fillPlatform (platform endpoint : Value) : Eval Value := do
  match ← getAttribute call endpoint "platform" with
  | .null => callAttribute call endpoint "with_platform" [platform]
  | _ => return endpoint

/-- What was collected, as a stack. -/
def stackOf (collection : Collection) (config : Config) (params : Value) : Eval Value := do
  let endpoints ← collection.endpoints.mapM fun (key, endpoint) => do
    return (key, ← fillPlatform config.platform endpoint)
  let endpoints ← intern (.named endpoints)
  let requiredApis ← newApis collection.requiredApis
  allocate (.stack { endpoints, requiredApis, specVersion := config.specVersion, params })

/-- Collects the functions of a loaded source, and its params as far as they are wanted. -/
def collectModule (config : Config) (registry : Value) (address : Nat) :
    Eval (Collection × Value) := do
  let collection ← collectFrom [] (.ref address)
  match collection.stop with
  | some failure => throw failure
  | none => pure ()
  let params ←
    if (← heap).isTruthy config.includeParams then callAttribute call registry "specs" []
    else intern (.list [])
  return (collection, params)

/-- Loads a source into a registry and collects what it declares. -/
def collectSource (source : Text) (config : Config) (registry : Value) :
    Eval (Collection × Value) := do
  collectModule config registry (← loadModule source config.entryFile)

/-- Makes a stack of what a source declared. -/
def finishStack (source : Text) (config : Config) (collection : Collection) (params : Value) :
    Eval LoadedStack := do
  let stack ← stackOf collection config params
  let endpoints := collection.endpoints.length
  let params := ((← heap).size? params).getD 0
  log .info loaderLog ("Discovered " ++ Text.ofNat endpoints ++ " endpoint(s) and " ++
    Text.ofNat params ++ " param(s) in " ++ source)
  return ⟨stack, collection.handlers⟩

/-- Loads a source and makes a stack of it. -/
def loadStack (source : Text) (config : Config) : Eval LoadedStack := do
  let (collection, params) ← inNewRegistry (collectSource source config)
  finishStack source config collection params

end FunctionManifest
