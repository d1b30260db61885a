import FunctionManifest.Language.Manifest

/-!
# What methods do

An object is the first argument of its methods. A method that finds another object there looks for
what it needs, and fails where that is not.
-/

namespace FunctionManifest

open Eval

/-! ## Patterns -/

/-- The parts of a path, which must be able to be split like a text. -/
def partsOf (call : Caller) (path : Value) : Eval (List Value) := do
  match path with
  | .text t => return (splitPath t).map .text
  | v =>
    let inner ← callAttribute call v "strip" [.text "/"]
    if (← heap).isTruthy inner then
      reading (·.items (← callAttribute call inner "split" [.text "/"]))
    else return []

/-- A part must be a text to be matched. -/
def matchable (v : Value) : Eval Text := do
  match v with
  | .text t => return t
  | v => throw (.notMatchable ((← heap).type v))

def newPattern (call : Caller) (template : Value) : Eval Value := do
  match template with
  | .text t => allocatePattern t
  | v =>
    let parts ← (← partsOf call v).mapM matchable
    allocatePattern (Text.join "/" parts)

/-- The captures that a path binds. A pattern without captures does not look at the path. -/
def matchesOf (call : Caller) (p : Pattern) (path : Value) : Eval Value := do
  if p.hasCaptures then
    let parts ← (← partsOf call path).mapM matchable
    let found := p.extractMatches (Text.join "/" parts)
    intern (.named (found.map fun binding => (binding.1, .text binding.2)))
  else intern (.mapping [])

/-! ## Registries -/

/-- The object at an address, which a registry is asked for. -/
def asRegistry (v : Value) (name : Text) : Eval (Nat × Registry Value) := do
  match v, ← cell? v with
  | .ref address, some (.registry r) => return (address, r)
  | v, _ => throw (← missing v name)

/-- Changes the registry at an address, by what is declared or by clearing it. -/
def changeRegistry (address : Nat) (registry : Registry Value) (declared : Option Declaration) :
    Eval Unit := do
  replace address (.registry registry)
  modify fun session =>
    { session with
      changes := session.changes ++ [⟨address, session.heap.scopes.current, declared⟩] }

def register (target v : Value) : Eval Value := do
  let (address, registry) ← asRegistry target "_params"
  let registry ← reading fun heap => registry.register heap.sameName v
  changeRegistry address registry (some ⟨v, (← heap).declaredName? v⟩)
  return v

/-! ## Methods -/

/-- The param that a method was asked of. -/
def asParam (v : Value) (name : Text) : Eval Param := do
  match ← cell? v with
  | some (.param p) => return p
  | _ => throw (← missing v name)

def asPattern (v : Value) (name : Text) : Eval Pattern := do
  match ← cell? v with
  | some (.pattern p _) => return p
  | _ => throw (← missing v name)

def asEndpoint (v : Value) (name : Text) : Eval Endpoint := do
  match ← cell? v with
  | some (.endpoint e) => return e
  | _ => throw (← missing v name)

/-- Changes the collection at an address. -/
def change (v : Value) (changed : Cell → Cell) : Eval Value := do
  match v, ← cell? v with
  | .ref address, some cell => replace address (changed cell)
  | _, _ => pure ()
  return .null

def newReference (p : Value) : Eval Value := allocate (.formula (.param p))

def newChoice (test : Value) (arguments : Arguments) : Eval Value :=
  allocate (.formula (.ifElse test (arguments.get "if_true") (arguments.get "if_false")))

def runMethod (call : Caller) (m : Method) (arguments : Arguments) : Eval Value := do
  let self := arguments.get "self"
  match m with
  | .paramReference => newReference self
  | .paramCompare => newComparison (arguments.get "op") (← newReference self) (arguments.get "rhs")
  | .paramEquals => newComparison (.text "==") (← newReference self) (arguments.get "rhs")
  | .paramChoose => newChoice (← newReference self) arguments
  | .paramSpec => paramSpec call (← asParam self "name")
  | .builtinSpec => throw (.noSpec (← reading fun heap => do heap.shown (← heap.nameOf self)))
  | .secretSpec _ =>
    match ← cell? self with
    | some (.secret s) => intern s.spec
    | _ => throw (← missing self "name")
  | .renderBase | .renderParam | .renderCompare | .renderIfElse =>
    ((← heap).expression self).render (asking call)
  | .deferredText => return .text (← ((← heap).expression self).deferredText (asking call))
  | .compare => newComparison (arguments.get "op") self (arguments.get "rhs")
  | .equals => newComparison (.text "==") self (arguments.get "rhs")
  | .choose => newChoice self arguments
  | .textSpec =>
    intern (Prompt.textSpec (← getAttribute call self "example")
      (← getAttribute call self "validation_regex")
      (← getAttribute call self "validation_error_message"))
  | .choiceSpec =>
    let label ← getAttribute call self "label"
    intern (Choice.spec ⟨← getAttribute call self "value", label⟩)
  | .selectSpec many => selectSpec call many (← getAttribute call self "options")
  | .resourceSpec => intern (Prompt.resourceSpec (← getAttribute call self "resource_type"))
  | .register => register self (arguments.get "param")
  | .find =>
    let (_, registry) ← asRegistry self "_params"
    let found ← reading fun heap => registry.find? (heap.hasName (arguments.get "name"))
    return found.getD .null
  | .specs =>
    let (_, registry) ← asRegistry self "_params"
    intern (.list (← registry.entries.mapM (specOf call)))
  | .clear =>
    let (address, registry) ← asRegistry self "_params"
    changeRegistry address registry.clear none
    return .null
  | .compile => newPattern call (arguments.get "raw")
  | .hasCaptures => return .bool (← asPattern self "_segments").hasCaptures
  | .hasWildcards => return .bool (← asPattern self "_segments").hasWildcards
  | .extractMatches => matchesOf call (← asPattern self "has_captures") (arguments.get "path")
  | .withEntryPoint =>
    let e ← asEndpoint self "trigger_kind"
    allocate (.endpoint (e.withEntryPoint (arguments.get "entry_point")))
  | .withPlatform =>
    let e ← asEndpoint self "trigger_kind"
    allocate (.endpoint (e.withPlatform (arguments.get "platform")))
  | .apiWire =>
    let api ← getAttribute call self "api"
    intern (RequiredApi.wire ⟨api, ← getAttribute call self "reason"⟩)
  | .append =>
    change self fun
      | .list items => .list (items ++ [arguments.get "item"])
      | cell => cell
  | .removeAll _ =>
    change self fun
      | .list _ => .list []
      | .mapping _ => .mapping []
      | cell => cell

end FunctionManifest
