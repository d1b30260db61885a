import FunctionManifest.Discovery.Member

/-!
# Discovering functions

The walk goes through the members of a namespace in order and into groups as it meets them, but
never into a group it is already in. It ends at the first function whose name has a dash, because
dashes join the names of a key, and at the first member that is not there. What was found is then
collected one by one.
-/

namespace FunctionManifest

/-- A function with the key it was found under. -/
structure Found where
  key : Text
  function : Value
  parts : CloudFunction
  deriving Inhabited

/-- The functions found, and the failure that ended the walk early. -/
structure Walk where
  found : List Found
  stop : Option Failure
  deriving Inhabited

namespace Walk

/-- A walk and then another one, unless the first was ended early. -/
def andThen (walk : Walk) (next : Unit → Walk) : Walk :=
  match walk.stop with
  | some _ => walk
  | none =>
    let rest := next ()
    ⟨walk.found ++ rest.found, rest.stop⟩

def nothing : Walk := ⟨[], none⟩

def stopped (failure : Failure) : Walk := ⟨[], some failure⟩

/-- Visits members until one ends the walk. -/
def visitAll (visit : Text → Value → Walk) : List Member → Walk
  | [] => nothing
  | .absent failure :: _ => stopped failure
  | .found name v :: rest => (visit name v).andThen fun _ => visitAll visit rest

end Walk

/-- Where a walk is: the names of the groups on the way, joined, and their addresses. -/
structure Way where
  groups : Text
  ancestors : List Nat
  deriving Inhabited

/-- The way that starts at a root. -/
def Way.start (groups : Text) : Value → Way
  | .ref address => ⟨groups, [address]⟩
  | _ => ⟨groups, []⟩

def Way.enter (way : Way) (name : Text) (address : Nat) : Way :=
  ⟨way.groups ++ name ++ "-", address :: way.ancestors⟩

/-- A function whose name has a dash has no key. -/
def findFunction (way : Way) (name : Text) (function : Value) (parts : CloudFunction) : Walk :=
  if name.contains '-' then .stopped (.ofDashedName name way.groups)
  else ⟨[⟨way.groups ++ name, function, parts⟩], none⟩

namespace Heap

/-- Walks the members of a value. A way never meets a group twice, so the fuel is the number of
objects. -/
def walk (heap : Heap) (project : Project) (root : Root) (fuel : Nat) (way : Way) (v : Value) :
    Walk :=
  match fuel with
  | 0 => .nothing
  | fuel + 1 =>
    Walk.visitAll
      (fun name member =>
        match heap.cell? member with
        | some (.function f) => findFunction way name member f
        | _ =>
          match heap.group? project root member with
          | .error failure => .stopped failure
          | .ok none => .nothing
          | .ok (some address) =>
            if address ∈ way.ancestors then .nothing
            else heap.walk project root fuel (way.enter name address) member)
      (heap.members v)

/-- The walk from a root. -/
def discover (heap : Heap) (project : Project) (groups : Text) (v : Value) : Walk :=
  match heap.rootOf project v with
  | .error failure => .stopped failure
  | .ok root => heap.walk project root (heap.cells.size + 1) (.start groups v) v

end Heap

/-! ## Collecting -/

/-- An entry point is a key with its names joined by points. -/
def entryPointOf (key : Text) : Text := Text.replace '-' '.' key

/-- What a walk makes up, as far as it could be collected. -/
structure Collection where
  endpoints : Fields
  requiredApis : List Value
  handlers : Fields
  stop : Option Failure
  deriving Inhabited

/-- How the parts of a function are collected. -/
structure Collector (m : Type → Type) where
  /-- The endpoint with an entry point. -/
  deployed : Value → Text → m (Except Failure Value)
  requiredApis : Value → m (Except Failure (List Value))
  /-- Notes that a function is collected. -/
  note : Text → m Unit

section

variable {m : Type → Type} [Monad m]

namespace Collection

def empty : Collection := ⟨[], [], [], none⟩

/-- Collects one function. Its endpoint is there before its required APIs, and these before the
function itself; what comes later under a key replaces what came before. -/
def add (collector : Collector m) (before : Collection) (found : Found) : m Collection := do
  match ← collector.deployed found.parts.endpoint (entryPointOf found.key) with
  | .error failure => return { before with stop := some failure }
  | .ok endpoint =>
    let reached := { before with endpoints := Assoc.set before.endpoints found.key endpoint }
    match ← collector.requiredApis found.parts.requiredApis with
    | .error failure => return { reached with stop := some failure }
    | .ok apis =>
      collector.note found.key
      return { reached with
        requiredApis := before.requiredApis ++ apis
        handlers := Assoc.set before.handlers found.key found.function }

/-- Collects functions until one cannot be collected. -/
def addAll (collector : Collector m) (before : Collection) : List Found → m Collection
  | [] => return before
  | found :: rest => do
    let collection ← add collector before found
    match collection.stop with
    | some _ => return collection
    | none => addAll collector collection rest

end Collection

/-- Collects what was found, and ends as the walk did. -/
def Walk.collect (collector : Collector m) (walk : Walk) : m Collection := do
  let collection ← Collection.addAll collector .empty walk.found
  return { collection with stop := collection.stop.orElse fun _ => walk.stop }

end

end FunctionManifest
