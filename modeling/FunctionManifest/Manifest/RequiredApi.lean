import FunctionManifest.Assoc
import FunctionManifest.Value.Basic

/-!
# Required APIs

An API that must be enabled before an endpoint can be deployed, with the reason. Requirements for
one API are folded into one: its distinct reasons in the order they were first given.
-/

namespace FunctionManifest

structure RequiredApi where
  api : Value
  reason : Value
  deriving Inhabited

namespace RequiredApi

def wire (required : RequiredApi) : Value :=
  .named [("api", required.api), ("reason", required.reason)]

variable (same : Value → Value → Bool)

def addReason (reasons : List Value) (reason : Value) : List Value :=
  if reasons.any (same · reason) then reasons else reasons ++ [reason]

/-- The distinct reasons of each API, both in the order of their first occurrence. -/
def reasonsByApi (required : List RequiredApi) : List (Value × List Value) :=
  required.foldl
    (fun reasons r =>
      let known := (Assoc.lookBy same reasons r.api).getD []
      Assoc.putBy same reasons r.api (addReason same known r.reason)) []

/-- One requirement for each API, its reasons joined. -/
def merge (joined : List Value → Except Failure Text) (required : List RequiredApi) :
    Except Failure (List RequiredApi) :=
  (reasonsByApi same required).mapM fun entry => do
    return ⟨entry.1, .text (← joined entry.2)⟩

end RequiredApi

end FunctionManifest
