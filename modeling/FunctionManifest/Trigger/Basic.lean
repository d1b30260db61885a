import FunctionManifest.Manifest.Endpoint

/-!
# Triggers

A trigger waits for the function it belongs to. What it was given is only looked at when it gets
one; only event filters are split at once.
-/

namespace FunctionManifest

inductive Payload where
  | request (invoker : Value)
  | call
  | schedule (times timezone retries : Value)
  | event (type exact patterns channel region retry : Value)
  deriving Inhabited

namespace Payload

def kind : Payload → TriggerKind
  | .request _ => .https
  | .call => .callable
  | .schedule .. => .schedule
  | .event .. => .event

end Payload

structure Trigger where
  /-- The name of the function that made it. -/
  maker : String
  payload : Payload
  labels : Value
  options : Fields
  requiredApis : Value
  deriving Inhabited

/-- The settings of retries, in the order in which a manifest lists them. -/
structure Retries where
  count : Value
  maxDuration : Value
  minBackoff : Value
  maxBackoff : Value
  maxDoublings : Value
  deriving Inhabited

def Retries.config (retries : Retries) : Value :=
  .named (given "retryCount" retries.count ++ given "maxRetryDuration" retries.maxDuration ++
    given "minBackoffDuration" retries.minBackoff ++
    given "maxBackoffDuration" retries.maxBackoff ++ given "maxDoublings" retries.maxDoublings)

namespace Trigger

def messagePublished : String := "google.cloud.pubsub.topic.v1.messagePublished"

def objectFinalized : String := "google.cloud.storage.object.v1.finalized"

end Trigger

end FunctionManifest
