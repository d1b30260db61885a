import FunctionManifest.Assoc
import FunctionManifest.Source.Statement
import FunctionManifest.Text.Encoded
import FunctionManifest.Text.Property

/-!
# Projects

The files that functions are loaded from. The project has no links, so a path is resolved by its
text alone; but a file is only there for a path if every directory on the way is.
-/

namespace FunctionManifest

/-- What a file holds: statements, perhaps after a mark at its start, or bytes that declare
nothing. -/
inductive Body where
  | statements (marked : Bool) (items : List Statement)
  | bytes (bytes : List Nat)
  deriving Inhabited

inductive FileEntry where
  | directory
  | file (body : Body)
  deriving Inhabited

/-- The names on the way from the root of the file system. A path that is not resolved may also
lead back. -/
abbrev Location := List Text

namespace Location

/-- The last name; the root has none. -/
def name (location : Location) : Text := location.getLastD []

def parent (location : Location) : Location := location.dropLast

/-- The location is below the directory, or the directory itself. -/
def isWithin (location directory : Location) : Bool := directory.isPrefixOf location

/-- The names of directories whose contents belong to no project. -/
def installedNames : List Text := ["site-packages", "dist-packages"]

def isInstalled (location : Location) : Bool := location.any installedNames.contains

/-- The step that leads back. -/
def back : Text := ".."

def step (location : Location) (part : Text) : Location :=
  if part = back then location.parent else location ++ [part]

/-- The location without steps back. -/
def resolved (location : Location) : Location := location.foldl step []

/-- The location as a path from the root. -/
def path (location : Location) : Text := .char '/' :: Text.join "/" location

end Location

/-- The steps of a path, without those that lead nowhere. -/
def pathParts (path : Text) : List Text :=
  (Text.split '/' path).filter fun part => part ≠ [] ∧ part ≠ [.char '.']

def isAbsolute (path : Text) : Bool := path.head? = some (.char '/')

/-- The name without its last suffix. A point at either end starts no suffix. -/
def fileStem (name : Text) : Text :=
  let reversed := name.reverse
  let suffix := reversed.takeWhile (· ≠ .char '.')
  let stem := (reversed.dropWhile (· ≠ .char '.')).drop 1
  if suffix = [] ∨ stem = [] then name else stem.reverse

structure Project where
  /-- The directory of the project, and how it is written in messages. -/
  home : Location
  label : Text
  /-- Where relative paths start. -/
  base : Location
  /-- Locations relative to the project's directory. -/
  entries : List (Location × FileEntry)
  deriving Inhabited

namespace Project

def relative? (project : Project) (location : Location) : Option Location :=
  if location.isWithin project.home then some (location.drop project.home.length) else none

def written (project : Project) (location : Location) : Text :=
  match project.relative? location with
  | some rest => Text.join "/" (project.label :: rest)
  | none => location.path

/-- The way that a path leads, from a directory or from the root. -/
def follow (project : Project) (directory : Location) (path : Text) : Location :=
  let start : Text := project.label ++ "/"
  if path = project.label then project.home
  else if start.isPrefixOf path then project.home ++ pathParts (path.drop start.length)
  else if isAbsolute path then pathParts path
  else directory ++ pathParts path

/-- The location that a path leads to from a directory. -/
def resolve (project : Project) (directory : Location) (path : Text) : Location :=
  (project.follow directory path).resolved

/-- A path that cannot be kept as bytes leads nowhere. The steps taken are looked at one by one. -/
def checkSteps (before : Location) : Location → Except Failure Unit
  | [] => .ok ()
  | part :: rest =>
    let location := before.step part
    if part ≠ Location.back ∧ part.contains (.ofCode 0) then .error .nullByte
    else
      match Text.Encoded.refused? location.path with
      | some (position, codes) => .error (.unencodable position codes)
      | none => checkSteps location rest

/-- The location that a path leads to, if it can lead anywhere. -/
def resolve? (project : Project) (directory : Location) (path : Text) :
    Except Failure Location := do
  let way := project.follow directory path
  checkSteps [] way
  return way.resolved

def held? (project : Project) (location : Location) : Option FileEntry :=
  match project.relative? location with
  | some [] => some .directory
  | some rest => Assoc.get? project.entries rest
  | none => if project.home.isWithin location then some .directory else none

/-- The location that a way leads to, if what stands before each further step is a directory. -/
def reach? (project : Project) (before : Location) : Location → Option Location
  | [] => some before
  | part :: rest =>
    match project.held? before with
    | some .directory => project.reach? (before.step part) rest
    | _ => none

/-- What is there for a way. -/
def there? (project : Project) (way : Location) : Option FileEntry :=
  (project.reach? [] way).bind project.held?

def isDirectory (project : Project) (way : Location) : Bool :=
  match project.there? way with
  | some .directory => true
  | _ => false

def body? (project : Project) (way : Location) : Option Body :=
  match project.there? way with
  | some (.file body) => some body
  | _ => none

def isFile (project : Project) (way : Location) : Bool := (project.body? way).isSome

/-- The directories above a location, outermost first, and not the root. -/
def parents (location : Location) : List Location :=
  (List.range location.length).filterMap fun n =>
    if n = 0 then none else some (location.take n)

/-- Puts an entry, with the directories it stands in. -/
def write (project : Project) (location : Location) (entry : FileEntry) : Project :=
  let missing := (parents location).filter fun parent =>
    !Assoc.contains project.entries parent
  let directories := missing.map fun parent => (parent, FileEntry.directory)
  { project with entries := Assoc.set (project.entries ++ directories) location entry }

/-- Removes an entry with everything below it. -/
def remove (project : Project) (location : Location) : Project :=
  { project with entries := project.entries.filter fun entry => !entry.1.isWithin location }

end Project

/-! ## The entry of a source -/

/-- The file that is looked up in a directory: a path, or what is none, as it is shown if it can
be. -/
inductive EntryFile where
  | path (text : Text)
  | other (type : Text) (shown : Except Failure Text)
  deriving Inhabited

namespace EntryFile

def shown : EntryFile → Except Failure Text
  | .path text => .ok text
  | .other _ shown => shown

/-- The way to the file from a directory. -/
def way (project : Project) (directory : Location) : EntryFile → Except Failure Location
  | .path text => .ok (project.follow directory text)
  | .other type _ => .error (.noOperation "/" "PosixPath" type)

end EntryFile

/-- The file of a package. -/
def packageFile : Text := "__init__.py"

/-- The file to load for a resolved path, and whether it is the one of a package. -/
def resolveEntry (project : Project) (target : Location) (entryFile : EntryFile) :
    Except Failure (Location × Bool) := do
  if project.isFile target then return (target, target.name = packageFile)
  if project.isDirectory target then
    if project.isFile (target ++ [packageFile]) then return (target ++ [packageFile], true)
    let mainFile ← entryFile.way project target
    if project.isFile mainFile then return (mainFile, false)
  throw (.noSource (project.written target) (← entryFile.shown))

/-- A module is named for its file, or a package for its directory. -/
def loadedName (location : Location) (isPackage : Bool) : Text :=
  let base := if isPackage then location.parent.name else fileStem location.name
  let name : Text := base.map fun c => if Text.isWord c then c else '_'
  let shown : Text := if name = [] then "functions" else name
  "_funcstack_" ++ shown

end FunctionManifest
