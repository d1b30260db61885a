import FunctionManifest.Command.Arguments
import FunctionManifest.Loading.Load

/-!
# Running the command

Loads the source and prints its manifest. A source that cannot be loaded is reported, and nothing is
printed then. A source may also end the program by itself.
-/

namespace FunctionManifest.Command

open Eval

inductive Exit where
  | code (n : Nat)
  /-- The source ended the program with these last words. -/
  | words (text : Text)
  /-- Nothing in the program deals with the failure. -/
  | failure (failure : Failure)
  deriving Inhabited, Repr

structure Outcome where
  exit : Exit
  out : Text
  err : Text
  deriving Inhabited, Repr

def commandLog : String := "funcstack.cli"

/-- Runs an action and gives its result, a failure being one as well. -/
def attempt {α : Type} (action : Eval α) : StateM Session (Except Failure α) := action.run

/-- A failure that ends the program is none of the command's business. -/
def exitOf (failure : Failure) : Exit :=
  if failure.kind.label = "SystemExit" then .words failure.message else .failure failure

def shownLog (verbose : Bool) (log : List LogEntry) : Text :=
  let lines := log.filter fun entry => verbose || entry.level = .warning
  lines.flatMap fun entry => entry.line ++ "\n"

/-- The manifest of a stack as text. -/
def manifestText (format : OutputFormat) (stack : Value) : Eval Text := do
  let endpoints ← getAttribute call stack "endpoints"
  let count := ((← heap).size? endpoints).getD 0
  log .debug commandLog ("Rendering manifest for " ++ Text.ofNat count ++ " endpoint(s)")
  let wire ← stackWire call stack
  reading fun heap => renderManifest heap wire format

/-- Prints the manifest, or tells why there is none. -/
def printManifest (invocation : Invocation) : StateM Session Outcome := do
  modify fun session => { session with log := [] }
  match ← attempt (loadStack invocation.source invocation.config) with
  | .error failure =>
    if failure.kind.endsProgram then return ⟨exitOf failure, [], ← logged⟩
    let _ ← attempt (log .debug commandLog "Discovery failed")
    let complaint : Text :=
      "Failed to generate manifest from function source: " ++ failure.message ++ "\n"
    return ⟨.code 1, [], (← logged) ++ complaint⟩
  | .ok loaded =>
    match ← attempt (manifestText invocation.format loaded.stack) with
    | .error failure => return ⟨exitOf failure, [], ← logged⟩
    | .ok text => return ⟨.code 0, text ++ "\n", ← logged⟩
where
  logged : StateM Session Text := return shownLog invocation.verbose (← get).log

/-- Does what the arguments ask for. -/
def run (arguments : List Text) : StateM Session Outcome :=
  match Request.ofArguments arguments with
  | .help level => return ⟨.code 0, level.help, []⟩
  | .misuse level misuse =>
    let complaint : Text := Text.ofString level.label ++ ": error: " ++ misuse.message ++ "\n"
    return ⟨.code 2, [], Text.ofString level.usage ++ complaint⟩
  | .manifest invocation => printManifest invocation

end FunctionManifest.Command
