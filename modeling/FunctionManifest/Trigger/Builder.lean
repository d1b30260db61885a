import FunctionManifest.Trigger.Filters
import FunctionManifest.Trigger.Options

/-!
# Attaching triggers

A trigger and a function make a function with an endpoint that is not deployed yet. Labels may be
given as a mapping, as entries one by one, or not at all.
-/

namespace FunctionManifest

/-- The kind by its key. A value that cannot be a key is none for a reason of its own. -/
def TriggerKind.ofValue (heap : Heap) (key : Value) : Except Failure TriggerKind := do
  heap.checkKey key
  match key with
  | .text name =>
    match ofKey? name with
    | some kind => return kind
    | none => throw (.unknownTriggerKind (Text.quoted name))
  | key => throw (.unknownTriggerKind (← heap.shown key))

/-- The field, unless its value says nothing. -/
def truthy (heap : Heap) (name : String) (v : Value) : Fields :=
  if heap.isTruthy v then field name v else []

namespace Payload

def invokerFields (heap : Heap) : Value → Except Failure Fields
  | .null => .ok []
  | .text name => .ok (field "invoker" (.texts [name]))
  | names => do return field "invoker" (.list (← heap.items names))

/-- What a manifest says under the trigger's kind. -/
def fields (heap : Heap) : Payload → Except Failure Fields
  | .request invoker => invokerFields heap invoker
  | .call => .ok []
  | .schedule times timezone retries =>
    .ok (field "schedule" times ++ given "timeZone" timezone ++
      truthy heap "retryConfig" retries)
  | .event type exact patterns channel region retry =>
    .ok (field "eventType" type ++ field "eventFilters" exact ++
      truthy heap "eventFilterPathPatterns" patterns ++ given "channel" channel ++
      given "region" region ++ field "retry" retry)

end Payload

def labelEntries (heap : Heap) (labels : Value) : Except Failure Entries :=
  if heap.isTruthy labels then heap.dictionary labels else .ok []

/-- An endpoint without an entry point. The kind is looked at last. -/
def Endpoint.make (heap : Heap) (kind trigger platform labels : Value) (options : Entries) :
    Except Failure Endpoint := do
  let trigger ← heap.dictionary trigger
  let labels ← labelEntries heap labels
  let options ← buildOptions heap options
  return {
    kind := ← TriggerKind.ofValue heap kind
    trigger := .mapping trigger
    entryPoint := .text []
    platform
    labels := .mapping labels
    options := .named options }

/-- The endpoint of a function with the trigger. -/
def Trigger.endpoint (heap : Heap) (trigger : Trigger) : Except Failure Endpoint := do
  let fields ← trigger.payload.fields heap
  let options := trigger.options.map fun option => (Value.text option.1, option.2)
  Endpoint.make heap (.text trigger.payload.kind.key) (.named fields) .null trigger.labels options

end FunctionManifest
