import FunctionManifest.Language.Access
import FunctionManifest.Trigger.Builder

/-!
# Manifests of objects

What a deploy tool is told about the objects of a session. An object is taken for what it can do:
whatever has the parts of an endpoint is described like one.
-/

namespace FunctionManifest

open Eval

/-! ## Entries -/

/-- Items that are entries each, up to the first that is none, with the reason why it is none. -/
def entriesUntil (heap : Heap) : List Value → Entries × Option Failure
  | [] => ([], none)
  | item :: rest =>
    match heap.pair item with
    | .error failure => ([], some failure)
    | .ok entry =>
      let (entries, stop) := entriesUntil heap rest
      (entry :: entries, stop)

/-- The entries that a value lists, which need not be a mapping for that. -/
def listedEntries (call : Caller) (v : Value) : Eval (Entries × Option Failure) := do
  match (← heap).entries? v with
  | some entries => return (entries, none)
  | none =>
    let listed ← callAttribute call v "items" []
    let items ← reading (·.items listed)
    return entriesUntil (← heap) items

/-- What is made of the entries, unless they end with a failure. -/
def fromEntries {α : Type} (call : Caller) (v : Value)
    (make : Heap → Entries → Except Failure α) : Eval α := do
  let (entries, stop) ← listedEntries call v
  let made ← reading fun heap => make heap entries
  match stop with
  | some failure => throw failure
  | none => return made

/-! ## Wire form -/

def wireOf (call : Caller) (v : Value) : Eval Value := do
  intern (← ((← heap).setting v).wire (asking call))

/-- An endpoint, or what has the parts of one. -/
def endpointReader (call : Caller) (v : Value) : EndpointReader Eval :=
  { part := fun name => getAttribute call v name
    convert := fun part => do ((← heap).setting part).wire (asking call)
    entries := fun options => fromEntries call options fun _ entries => .ok entries
    put := fun entries key part => reading (·.putEntry entries key part) }

def endpointWire (call : Caller) (v : Value) : Eval Value := (endpointReader call v).wire

/-- The manifest of a stack, or of what has the parts of one. -/
def stackWire (call : Caller) (v : Value) : Eval Value := do
  let entries ← fromEntries call (← getAttribute call v "endpoints") fun _ entries => .ok entries
  let endpoints ← entries.mapM fun entry => do return (entry.1, ← endpointWire call entry.2)
  let apis ← reading (·.items (← getAttribute call v "required_apis"))
  let apis ← apis.mapM fun api => callAttribute call api "to_wire" []
  let version ← getAttribute call v "spec_version"
  let params ← getAttribute call v "params"
  let params ← if (← heap).isTruthy params then some <$> wireOf call params else pure none
  intern (Stack.manifest endpoints apis version params)

/-! ## Specs -/

def specOf (call : Caller) (v : Value) : Eval Value := callAttribute call v "to_spec" []

def paramSpec (call : Caller) (p : Param) : Eval Value := do
  let default ← reading p.specDefault
  let prompt ← p.input.given?.mapM (specOf call)
  intern (p.spec default prompt)

def selectSpec (call : Caller) (many : Bool) (choices : Value) : Eval Value := do
  let choices ← (← reading (·.items choices)).mapM (specOf call)
  intern (Prompt.selectSpec many choices)

/-! ## Objects with parts -/

def allocateApi (required : RequiredApi) : Eval Value := allocate (.api required)

def allocateEndpoint (e : Endpoint) : Eval Value := do
  let trigger ← intern e.trigger
  let labels ← intern e.labels
  let options ← intern e.options
  allocate (.endpoint { e with trigger, labels, options })

def allocatePattern (template : Text) : Eval Value := do
  let pattern : Pattern := ⟨template⟩
  let segments ← pattern.segments.mapM fun
    | .literal text => allocate (.segment .literal (.text text))
    | .single name => allocate (.segment .single (.text name))
    | .multi name => allocate (.segment .multi (.text name))
  allocate (.pattern pattern (← intern (.tuple segments)))

def allocatePrompt (many : Bool) (choices : List Choice) : Eval Value := do
  let choices ← choices.mapM fun choice => allocate (.choice choice)
  allocate (.prompt (.select many (← intern (.tuple choices))))

/-- A function with the trigger attached. -/
def attach (trigger : Trigger) (invoke : Value) : Eval Value := do
  let endpoint ← allocateEndpoint (← reading trigger.endpoint)
  allocate (.function ⟨endpoint, invoke, trigger.requiredApis⟩)

/-- A comparison. The comparator must be able to be a key. -/
def newComparison (op left right : Value) : Eval Value := do
  reading (·.checkKey op)
  let known := match op with
    | .text symbol => Comparator.ofSymbol? symbol
    | _ => none
  match known with
  | some op => allocate (.formula (.compare op left right))
  | none => throw (.unknownComparator (← reading (·.shown op)))

end FunctionManifest
