import FunctionManifest.Value.Basic

/-!
# Endpoints

An endpoint describes one function: what triggers it and with which options it is deployed. A
function carries its endpoint until it is discovered; then the endpoint gets its entry point.
-/

namespace FunctionManifest

inductive TriggerKind where
  | https
  | callable
  | event
  | schedule
  deriving DecidableEq, Inhabited, Repr

namespace TriggerKind

/-- The key of the trigger in a manifest. -/
def key : TriggerKind → String
  | .https => "httpsTrigger"
  | .callable => "callableTrigger"
  | .event => "eventTrigger"
  | .schedule => "scheduleTrigger"

def all : List TriggerKind := [.https, .callable, .event, .schedule]

def ofKey? (key : Text) : Option TriggerKind := all.find? (key = ·.key)

end TriggerKind

structure Endpoint where
  kind : TriggerKind
  trigger : Value
  entryPoint : Value
  platform : Value
  labels : Value
  options : Value
  deriving Inhabited

namespace Endpoint

def withEntryPoint (endpoint : Endpoint) (entryPoint : Value) : Endpoint :=
  { endpoint with entryPoint }

def withPlatform (endpoint : Endpoint) (platform : Value) : Endpoint :=
  { endpoint with platform }

/-- The parts by the names that they are known under. -/
def fields (endpoint : Endpoint) : List (String × Value) :=
  [("trigger_kind", .text endpoint.kind.key), ("trigger", endpoint.trigger),
    ("entry_point", endpoint.entryPoint), ("platform", endpoint.platform),
    ("labels", endpoint.labels), ("options", endpoint.options)]

end Endpoint

/-! ## Wire form -/

/-- What making an endpoint's entries needs of a heap. -/
structure EndpointReader (m : Type → Type) where
  /-- A part by its name. -/
  part : String → m Value
  convert : Value → m Value
  entries : Value → m Entries
  put : Entries → Value → Value → m Entries

section

variable {m : Type → Type} [Monad m]

/-- Puts options one after the other. An option with the key of an entry replaces it. -/
def EndpointReader.putOptions (reader : EndpointReader m) : Entries → Entries → m Entries
  | wire, [] => pure wire
  | wire, (key, v) :: rest => do
    let v ← reader.convert v
    reader.putOptions (← reader.put wire key v) rest

/-- The endpoint as a deploy tool reads it. -/
def EndpointReader.wire (reader : EndpointReader m) : m Value := do
  let entryPoint ← reader.part "entry_point"
  let platform ← reader.part "platform"
  let labels ← reader.convert (← reader.part "labels")
  let trigger ← reader.convert (← reader.part "trigger")
  let kind ← reader.part "trigger_kind"
  let header := [(Value.text "entryPoint", entryPoint)] ++
    (platform.given?.map fun v => (Value.text "platform", v)).toList ++
    [(.text "labels", labels)]
  let wire ← reader.put header kind trigger
  return .mapping (← reader.putOptions wire (← reader.entries (← reader.part "options")))

end

/-- A function with its endpoint. -/
structure CloudFunction where
  endpoint : Value
  invoke : Value
  requiredApis : Value
  deriving Inhabited

end FunctionManifest
