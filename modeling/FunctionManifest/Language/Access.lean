import FunctionManifest.Heap.Search
import FunctionManifest.Session

/-!
# Attributes

What objects have as attributes: what they are made of, what is computed from it, and what they can
be asked to do. A few attributes can be set.
-/

namespace FunctionManifest

open Eval

/-! ## Looking up -/

/-- An imported module whose file is still running. -/
def isStarting (v : Value) : Eval Bool := do
  match v with
  | .ref address => return (← get).starting.contains address
  | _ => return false

/-- The failure of looking for an attribute that is not there. -/
def missing (v : Value) (name : Text) : Eval Failure := do
  let failure := (← heap).missing v name
  match failure with
  | .noMember (some moduleName) _ =>
    if ← isStarting v then return .noMemberYet moduleName name else return failure
  | _ => return failure

/-- A method of an object or of a type. A type lets its constructor be called by itself. -/
def Cell.method? (cell : Cell) (v : Value) (name : Text) : Option Cell :=
  match cell with
  | .builtin b =>
    (Method.named? (Method.ofConstructor b) name).map fun m =>
      .method m (if m = .compile then some v else none)
  | cell => (Method.named? cell.methods name).map fun m => .method m (some v)

/-- An attribute that is there without computing anything. -/
def ready? (v : Value) (name : Text) : Eval (Option Value) := do
  let heap ← heap
  match heap.stored? v name with
  | some found => return some found
  | none =>
    match (heap.cell? v).bind (·.method? v name) with
    | some method => return some (← allocate method)
    | none => return none

/-- Calls an attribute. -/
def callAttribute (call : Caller) (v : Value) (name : Text) (positional : List Value) :
    Eval Value := do
  match ← ready? v name with
  | some found => call found positional []
  | none => throw (← missing v name)

/-! ## Texts of values -/

/-- What rendering asks, given how values are printed. -/
def askingWith (call : Caller) (printed : Value → Eval Text) : Asking Eval :=
  { name := fun v => reading (·.nameOf v)
    render := fun v => callAttribute call v "render" []
    printed
    type := fun v => return (← heap).type v }

/-- A value as a text. An expression is rendered, a pattern is its template, and a failure says what
it was made with; all else is shown. -/
def printedFrom (call : Caller) (fuel : Nat) (v : Value) : Eval Text :=
  match fuel with
  | 0 => throw (.endless "")
  | fuel + 1 => do
    let heap ← heap
    match v, heap.cell? v with
    | .text t, _ => return t
    | _, some (.formula _) =>
      match ← (heap.expression v).render (askingWith call (printedFrom call fuel)) with
      | .text t => return t
      | w => throw (.notTextResult (heap.type w))
    | _, some (.pattern p _) => return p.template
    | _, some (.failure _ arguments _) =>
      match heap.items? arguments with
      | some [] => return []
      | some [argument] => printedFrom call fuel argument
      | _ => reading (·.shown arguments)
    | v, _ => reading (·.shown v)

/-- How deep printing can lead from one value to another. -/
def printDepth : Nat := 1000

def printed (call : Caller) (v : Value) : Eval Text := printedFrom call printDepth v

def asking (call : Caller) : Asking Eval := askingWith call (printed call)

/-! ## Computed attributes -/

def readParam (call : Caller) (p : Param) : Eval Value := do
  let session ← get
  intern (← ofReading (← p.read session.heap (printed call) session.environment))

def rawValue (p : Param) : Eval Value := do
  let session ← get
  match ← MonadExcept.ofExcept (session.environment.rawText? session.heap p.name) with
  | some raw => return .text raw
  | none => return .null

def computed? (call : Caller) (cell : Cell) (name : String) : Eval (Option Value) := do
  match cell, name with
  | .param p, "value" => return some (← readParam call p)
  | .param p, "raw_value" => return some (← rawValue p)
  | .secret s, "value" =>
    let session ← get
    let v ← MonadExcept.ofExcept (s.read session.heap session.environment)
    return some (← intern v)
  | .function f, "name" => return some (← reading fun heap => f.name heap heap.shown)
  | .registry r, "names" =>
    let names ← reading fun heap => r.names heap.nameOf
    return some (← intern (.list names))
  | .pattern p _, "capture_names" => return some (← intern (.tuple (p.captureNames.map .text)))
  | .segment .literal content, "is_wildcard" =>
    return some (.bool (← reading (·.contains content (.text "*"))))
  | .segment .literal content, "is_multi_wildcard" =>
    return some (.bool (← reading (·.same content (.text "**"))))
  | _, _ => return none

/-- The attribute, if the value has it. -/
def attribute? (call : Caller) (v : Value) (name : Text) : Eval (Option Value) := do
  match ← ready? v name with
  | some found => return some found
  | none =>
    match ← cell? v with
    | some cell => computed? call cell name.spelled
    | none => return none

def getAttribute (call : Caller) (v : Value) (name : Text) : Eval Value := do
  match ← attribute? call v name with
  | some found => return found
  | none => throw (← missing v name)

/-! ## Setting -/

/-- Attributes that are computed and cannot be set. -/
def Cell.computedNames : Cell → List Text
  | .param _ => ["value", "raw_value"]
  | .secret _ => ["value"]
  | .registry _ => ["names"]
  | _ => []

/-- Attributes that an object has from its type. -/
def Cell.typeNames (cell : Cell) : List Text :=
  let own : List String := match cell with
    | .param _ => ["value_type", "_text", "_spec_default"]
    | .secret _ => ["value_type"]
    | _ => []
  (own ++ cell.methods.map Method.label).map Text.ofString

def Param.with? (p : Param) (name : String) (v : Value) : Option Param :=
  match name with
  | "name" => some { p with name := v }
  | "default" => some { p with default := v }
  | "label" => some { p with label := v }
  | "description" => some { p with description := v }
  | "input" => some { p with input := v }
  | "config_key" => if p.kind = .builtin then some { p with configKey := v } else none
  | _ => none

def Secret.with? (s : Secret) (name : String) (v : Value) : Option Secret :=
  if name = "name" then some { s with name := v } else none

/-- What a compiled expression was made from. -/
def regexNames : List Text := ["pattern", "flags", "groups"]

/-- Why an attribute of an object cannot be set. -/
def Cell.refusal (cell : Cell) (name : Text) : Failure :=
  match cell.parts? with
  | some parts =>
    if parts.any fun part => name = part.1 then .frozenField name else .frozenObject
  | none =>
    if cell matches .regex _ ∧ regexNames.contains name then .plain .attribute "readonly attribute"
    else if cell.computedNames.contains name then .noSetter cell.type name
    else if cell.typeNames.contains name then .readOnly cell.type name
    else .noAttribute cell.type name

/-- The name by which a function is called must be a text. -/
def checkCalledName (name : Text) (v : Value) : Except Failure Unit :=
  match v with
  | .text _ => .ok ()
  | _ =>
    if name = "__name__" then
      .error (.plain .argument "__name__ must be set to a string object")
    else .ok ()

/-- The object with an attribute set. -/
def Cell.with (heap : Heap) (cell : Cell) (name : Text) (v : Value) : Except Failure Cell :=
  match cell with
  | .record fields => .ok (.record (Assoc.set fields name v))
  | .module attributes => .ok (.module (Assoc.set attributes name v))
  | .callable label named attributes => do
    if named then checkCalledName name v
    return .callable label named (Assoc.set attributes name v)
  | .unknown label attributes => .ok (.unknown label (Assoc.set attributes name v))
  | .trigger t attributes => do
    checkCalledName name v
    return .trigger t (Assoc.set attributes name v)
  | .failure kind arguments attributes =>
    if name = "args" then do return .failure kind (.tuple (← heap.items v)) attributes
    else .ok (.failure kind arguments (Assoc.set attributes name v))
  | .param p =>
    match p.with? name.spelled v with
    | some p => .ok (.param p)
    | none => .error (cell.refusal name)
  | .secret s =>
    match s.with? name.spelled v with
    | some s => .ok (.secret s)
    | none => .error (cell.refusal name)
  | .pattern .. => .error .frozenPattern
  | cell => .error (cell.refusal name)

def setAttribute (target name v : Value) : Eval Unit := do
  let heap ← heap
  match name, target, heap.cell? target with
  | .text name, .ref address, some cell =>
    replace address (← MonadExcept.ofExcept (cell.with heap name v))
    modify fun session => { session with settings := session.settings ++ [(address, name)] }
  | .text name, target, _ => throw (.noAttribute (heap.type target) name)
  | name, _, _ => throw (.notAttributeName (heap.type name))

/-- Sets the entry of a mapping, and the attribute of anything else. -/
def setItem (target key v : Value) : Eval Unit := do
  match target, ← cell? target with
  | .ref address, some (.mapping entries) =>
    replace address (.mapping (← reading (·.putEntry entries key v)))
  | _, _ => setAttribute target key v

end FunctionManifest
