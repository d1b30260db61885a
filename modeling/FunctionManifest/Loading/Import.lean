import FunctionManifest.Language.Evaluate

/-!
# Imports

A module is found along a search path, runs once, and is shared from then on. A directory without a
package file is a package too; its parts are gathered along the whole path. A module whose file
fails is forgotten again, and a submodule that is loaded becomes an attribute of its package.
-/

namespace FunctionManifest

open Eval

/-! ## Finding -/

/-- A file to run, with the path of the package it is the file of, or the parts of a package without
a file. -/
inductive Finding where
  | file (location : Location) (package? : Option Location)
  | parts (places : List Location)
  deriving DecidableEq, Inhabited, Repr

/-- What a place has under a name: a package comes before a file, and a directory last. -/
def findIn (project : Project) (place : Location) (name : Text) : Option Finding :=
  let directory := place ++ [name]
  let file := place ++ [name ++ ".py"]
  if project.isFile (directory ++ [packageFile]) then
    some (.file (directory ++ [packageFile]) (some directory))
  else if project.isFile file then some (.file file none)
  else if project.isDirectory directory then some (.parts [directory])
  else none

/-- The first file along the places, or all parts if there is none. -/
def findAlong (project : Project) (name : Text) : List Location → Option Finding
  | [] => none
  | place :: rest =>
    match findIn project place name, findAlong project name rest with
    | some (.file location package?), _ => some (.file location package?)
    | some (.parts parts), some (.parts more) => some (.parts (parts ++ more))
    | some (.parts parts), none => some (.parts parts)
    | _, found => found

/-! ## Modules -/

/-- A dotted name given last part first. -/
def dotted (reversed : List Text) : Text := Text.join "." reversed.reverse

def reversedName (name : Text) : List Text := (Text.split '.' name).reverse

/-- The program's own modules are always loaded. -/
def ownModule? (name : Text) : Option Value :=
  (Export.moduleNames.find? fun known => name = Text.ofString known).map Heap.exportedModule

def loadedAddress? (name : Text) : Eval (Option Nat) := do
  match Assoc.get? (← get).loaded name, ownModule? name with
  | some address, _ => return some address
  | none, some (.ref address) => return some address
  | none, _ => return none

def moduleAttributes (address : Nat) : Eval Fields := do
  match ← cell? (.ref address) with
  | some (.module attributes) => return attributes
  | _ => return []

def setGlobal (address : Nat) (name : Text) (v : Value) : Eval Unit := do
  let attributes ← moduleAttributes address
  replace address (.module (Assoc.set attributes name v))

def global? (address : Nat) (name : String) : Eval (Option Value) :=
  return Assoc.get? (← moduleAttributes address) (Text.ofString name)

/-- What a module has before it runs. -/
def startOfModule (project : Project) (name packageName : Text) (file : Option Location)
    (path : Option PackagePath) : Fields :=
  let places := match path with
    | some (.fixed places) | some (.gathered _ places) =>
      field "__path__" (.texts (places.map project.written))
    | none => []
  Assoc.setAll (moduleStart name)
    (field "__package__" (.text packageName) ++ places ++
      field "__file__" ((file.map fun file => .text (project.written file)).getD .null) ++
      field "__cached__" .null ++ field "__builtins__" .null)

/-- A module that has not run, under its name in the table of loaded modules. -/
def addModule (name packageName : Text) (file : Option Location) (path : Option PackagePath) :
    Eval Nat := do
  let start := startOfModule (← get).project name packageName file path
  let attributes ← start.mapM fun (key, v) => do return (key, ← intern v)
  match ← allocate (.module attributes) with
  | .ref address =>
    modify fun session =>
      { session with
        loaded := Assoc.set session.loaded name address
        packages := session.packages ++ (path.map (address, ·)).toList }
    return address
  | _ => return 0

def forget (name : Text) : Eval Unit :=
  modify fun session => { session with loaded := Assoc.erase session.loaded name }

def setPath (package : Nat) (path : PackagePath) : Eval Unit :=
  modify fun session => { session with packages := Assoc.set session.packages package path }

/-- The places of the parts of a package. They are gathered again if the path of the parent is not
what it was. -/
def gatherAgain (package : Nat) (last : Text) (parent places now : List Location) :
    Eval (List Location) := do
  if now = parent then return places
  else
    let places := match findAlong (← get).project last now with
      | some (.parts parts) => parts
      | _ => places
    setPath package (.gathered now places)
    return places

/-- Where the submodules of a loaded package are looked for now. The name is given last part first.
The parent of a package without a file must still be loaded. -/
def placesOf? : List Text → Eval (Option (List Location))
  | [] => return none
  | last :: parents => do
    let session ← get
    match Assoc.get? session.loaded (dotted (last :: parents)) with
    | none => return none
    | some address =>
      match Assoc.get? session.packages address with
      | none => return none
      | some (.fixed places) => return some places
      | some (.gathered parent places) =>
        match parents with
        | [] => return some (← gatherAgain address last parent places session.searchPath)
        | _ =>
          match ← placesOf? parents with
          | some now => return some (← gatherAgain address last parent places now)
          | none => throw (.noKey (Text.quoted (dotted parents)))

def starts (address : Nat) : Eval Unit :=
  modify fun session => { session with starting := address :: session.starting }

def ended (address : Nat) : Eval Unit :=
  modify fun session => { session with starting := session.starting.erase address }

/-- Runs the file of a module. -/
abbrev Runner := Nat → Text → Location → Eval Unit

/-- Runs the file of a module, which is forgotten if that fails. -/
def runAdded (run : Runner) (name : Text) (location : Location) (address : Nat) : Eval Unit := do
  starts address
  try
    ensuring (run address name location) (ended address)
  catch failure =>
    forget name
    throw failure

/-- Loads what was found as a module. -/
def loadFinding (run : Runner) (name packageName : Text) (along : List Location) :
    Finding → Eval Nat
  | .parts places => addModule name name none (some (.gathered along places))
  | .file location package? => do
    let owner := if package?.isSome then name else packageName
    let address ← addModule name owner (some location) (package?.map fun place => .fixed [place])
    runAdded run name location address
    return address

/-- Loads a module that is found along the places. -/
def loadAlong (run : Runner) (name packageName last : Text) (places : List Location) :
    Eval Nat := do
  match findAlong (← get).project last places with
  | none => throw (.noModule name)
  | some finding => loadFinding run name packageName places finding

/-- A package gets a submodule as an attribute, if it is still loaded. -/
def bindSubmodule (packageName last : Text) (submodule : Value) : Eval Unit := do
  match ← loadedAddress? packageName with
  | some package => setGlobal package last submodule
  | none => pure ()

/-- Loads a submodule of a loaded package. -/
def loadSubmodule (run : Runner) (last : Text) (parents : List Text) : Eval Nat := do
  let name := dotted (last :: parents)
  let packageName := dotted parents
  match ← placesOf? parents with
  | none => throw (.notPackage name packageName)
  | some places =>
    let address ← loadAlong run name packageName last places
    bindSubmodule packageName last (.ref address)
    return address

/-- The loaded module of a name, or else what is loaded now. -/
def unlessLoaded (name : Text) (load : Eval Nat) : Eval Nat := do
  match ← loadedAddress? name with
  | some address => return address
  | none => load

/-- Loads the module of a name, given last part first, unless it is loaded. -/
def loadModuleNamed (run : Runner) : List Text → Eval Nat
  | [] => throw (.noModule [])
  | last :: parents =>
    let name := dotted (last :: parents)
    unlessLoaded name do
      match parents with
      | [] => loadAlong run name [] last (← get).searchPath
      | _ =>
        let _ ← loadModuleNamed run parents
        -- The package may have loaded the module itself.
        unlessLoaded name (loadSubmodule run last parents)

/-! ## Statements -/

/-- Imports a module by its name. -/
abbrev Importer := Text → Eval Nat

/-- The attribute of what was imported, or else the loaded submodule of that name. -/
def importName (v : Value) (name : Text) : Eval Value := do
  let heap ← heap
  match heap.stored? v name with
  | some found => return found
  | none =>
    let attributes := ((heap.cell? v).map Cell.attributes).getD []
    let owner := (moduleName? attributes).getD []
    match ← loadedAddress? (owner ++ "." ++ name) with
    | some submodule => return .ref submodule
    | none => throw (.noImportable name owner none (← isStarting v))

/-- Binds the first module of the name, or the last one if it gets a name of its own. -/
def runImport (imports : Importer) (address : Nat) (path : Text) (alias? : Option Text) :
    Eval Unit := do
  let _ ← imports path
  let parts := Text.split '.' path
  let first := parts.headD []
  let top := Value.ref (← imports first)
  match alias? with
  | none => setGlobal address first top
  | some name => setGlobal address name (← (parts.drop 1).foldlM importName top)

/-- The package from which a relative path starts: one level up for each further dot. -/
def startOf (package : Text) (dots : Nat) : Except Failure Text :=
  if package = [] then .error .noParentPackage
  else
    let parts := reversedName package
    if parts.length < dots then .error .beyondTopPackage else .ok (dotted (parts.drop (dots - 1)))

/-- The full name of a path, which is relative if it starts with dots. -/
def fullName (address : Nat) (path : Text) : Eval Text := do
  let dots := (path.takeWhile (· = .char '.')).length
  let rest := path.drop dots
  if dots = 0 then return path
  else
    let package ← match ← global? address "__package__" with
      | some (.text package) => pure package
      | _ => pure []
    let start ← MonadExcept.ofExcept (startOf package dots)
    return if rest = [] then start else start ++ "." ++ rest

/-- A failure that only says that the module of this name is not there. -/
def isMissing (name : Text) : Failure → Bool
  | .noModule missing | .notPackage missing _ => missing == name
  | _ => false

/-- Imports the name of a package in case it is a submodule. -/
def importSubmodule (imports : Importer) (package : Nat) (name : Text) : Eval Unit := do
  let attributes ← moduleAttributes package
  if !Assoc.contains attributes name then
    let submodule := (moduleName? attributes).getD [] ++ "." ++ name
    try
      let _ ← imports submodule
    catch failure =>
      if !isMissing submodule failure then throw failure

def runImportFrom (imports : Importer) (address : Nat) (path : Text)
    (names : List (Text × Text)) : Eval Unit := do
  let package ← imports (← fullName address path)
  if Assoc.contains (← get).packages package then
    for (name, _) in names do
      importSubmodule imports package name
  for (name, bound) in names do
    setGlobal address bound (← importName (.ref package) name)

/-- The globals of a module, as variables. -/
def globals (attributes : Fields) : Variables := fun name =>
  match Assoc.get? attributes name with
  | some v => .ok v
  | none => .error (.unbound name)

/-- The failure that a statement raises. -/
def raised (kind : FailureKind) (text : Text) : Failure :=
  match kind with
  | .exportName => .ofDashedName text []
  | kind => .plain kind text

def runStatement (imports : Importer) (address : Nat) : Statement → Eval Unit
  | .assign name value => do
    let v ← value.evaluate (globals (← moduleAttributes address))
    setGlobal address name v
  | .delete name => do
    let attributes ← moduleAttributes address
    if Assoc.contains attributes name then
      replace address (.module (Assoc.erase attributes name))
    else throw (.unbound name)
  | .importModule path alias? => runImport imports address path alias?
  | .importFrom path names => runImportFrom imports address path names
  | .fail kind text => throw (raised kind text)
  | .snippet _ => pure ()

def runStatements (imports : Importer) (address : Nat) : List Statement → Eval Unit
  | [] => pure ()
  | statement :: rest => do
    runStatement imports address statement
    runStatements imports address rest

/-- Begins to run the file of a module. -/
def runBegins (name : Text) (location : Location) : Eval Unit :=
  modify fun session => { session with executed := session.executed ++ [(name, location)] }

/-- Runs an imported file, which cannot suspend. -/
def runFile (imports : Importer) : Runner := fun address name location => do
  match (← get).project.body? location with
  | none => throw .badSyntax
  | some (.bytes bytes) =>
    match Text.Utf8.decode bytes with
    | .ok _ => pure ()
    | .error _ => throw .badSyntax
  | some (.statements _ statements) =>
    let tree ← MonadExcept.ofExcept (sourceTree statements)
    MonadExcept.ofExcept (checkCompiles tree .sync)
    runBegins name location
    runStatements imports address statements

/-- Imports by name. The fuel bounds how deep imports are nested. -/
def importModule : Nat → Importer
  | 0 => fun name => throw (.noModule name)
  | fuel + 1 => fun name =>
    loadModuleNamed (runFile (importModule fuel)) (reversedName name)

/-- Imports are nested no deeper than there are names for files. -/
def importDepth : Eval Nat := do
  let count := (← get).project.entries.length + 2
  return count * count

end FunctionManifest
