import FunctionManifest.Language.Operation
import FunctionManifest.Manifest.Output

/-!
# Calls

What the names a source can call do with their arguments. What is made keeps its arguments as they
are given; whether they are of use shows later.
-/

namespace FunctionManifest

open Eval

/-! ## Declarations -/

/-- Declares something in the registry given, or else in the current one. Anything that can register
will do for a registry. -/
def declare (call : Caller) (declared target : Value) : Eval Value := do
  let target ← match target with
    | .null => currentRegistry
    | target => pure target
  callAttribute call target "register" [declared]

def newParam (kind : ParamKind) (arguments : Arguments) : Eval Value :=
  allocate (.param
    { kind
      name := arguments.get "name"
      default := arguments.get "default"
      label := arguments.get "label"
      description := arguments.get "description"
      input := arguments.get "input"
      configKey := arguments.get "config_key" })

def newSecret (json : Bool) (arguments : Arguments) : Eval Value :=
  allocate (.secret ⟨json, arguments.get "name"⟩)

/-! ## Triggers -/

def newTrigger (maker : TriggerName) (payload : Payload) (arguments : Arguments)
    (requiredApis : Value) : Trigger :=
  { maker := maker.label
    payload
    labels := arguments.get "labels"
    options := arguments.extra
    requiredApis }

def retriesOf (arguments : Arguments) : Retries :=
  { count := arguments.get "retry_count"
    maxDuration := arguments.get "max_retry_duration"
    minBackoff := arguments.get "min_backoff_duration"
    maxBackoff := arguments.get "max_backoff_duration"
    maxDoublings := arguments.get "max_doublings" }

/-- An event with its filters split at once. No filters are as good as empty ones. -/
def eventTrigger (call : Caller) (arguments : Arguments) : Eval Trigger := do
  let filters := arguments.get "filters"
  let (exact, patterns) ←
    if (← heap).isTruthy filters then
      fromEntries call filters fun heap entries => .ok (splitFilters heap entries)
    else pure ([], [])
  let exact ← intern (.mapping exact)
  let patterns ← intern (.mapping patterns)
  let retry := (arguments.get? "retry").getD (.bool false)
  let payload := Payload.event (arguments.get "event_type") exact patterns
    (arguments.get "channel") (arguments.get "event_region") retry
  return newTrigger .event payload arguments
    ((arguments.get? "required_apis").getD Heap.emptyTuple)

/-- The arguments of the event that a trigger about one thing stands for. Options must not give
these arguments again. -/
def eventArguments (type : String) (fields extra : Fields) : Except Failure Arguments :=
  match extra.find? fun option => Assoc.contains fields option.1 with
  | some option => .error (.repeatedKeyword "funcstack.triggers.events.on_event" option.1)
  | none => TriggerName.event.signature.bind [.text type] (fields ++ extra)

/-- The filter of an event by what it is about. -/
def filterField (name : String) (v : Value) : Eval Fields := do
  return field "filters" (← intern (.named (field name v)))

/-- The functions that can be decorated directly give a function when they get one. -/
def decorateOr (trigger : Trigger) (invoke : Value) : Eval Value :=
  match invoke with
  | .null => allocate (.trigger trigger [])
  | invoke => attach trigger invoke

def callTrigger (call : Caller) (name : TriggerName) (arguments : Arguments) : Eval Value := do
  let retry := field "retry" ((arguments.get? "retry").getD (.bool false))
  match name with
  | .request =>
    let trigger := newTrigger name (.request (arguments.get "invoker")) arguments Heap.emptyTuple
    decorateOr trigger (arguments.get "func")
  | .call =>
    decorateOr (newTrigger name .call arguments Heap.emptyTuple) (arguments.get "func")
  | .schedule =>
    let retries ← intern (retriesOf arguments).config
    let apis ← intern (.tuple [Heap.schedulerApi])
    let payload := Payload.schedule (arguments.get "schedule") (arguments.get "timezone") retries
    allocate (.trigger (newTrigger name payload arguments apis) [])
  | .event => allocate (.trigger (← eventTrigger call arguments) [])
  | .message =>
    let filters ← filterField "topic" (arguments.get "topic")
    let apis ← intern (.tuple [Heap.messagingApi])
    let arguments ← MonadExcept.ofExcept (eventArguments Trigger.messagePublished
      (filters ++ retry ++ field "required_apis" apis) arguments.extra)
    allocate (.trigger (← eventTrigger call arguments) [])
  | .storage =>
    let filters ← filterField "bucket" (arguments.get "bucket")
    let arguments ← MonadExcept.ofExcept
      (eventArguments Trigger.objectFinalized (filters ++ retry) arguments.extra)
    allocate (.trigger (← eventTrigger call arguments) [])

/-! ## Objects -/

/-- The argument, or a new mapping. -/
def mappingOr (v : Option Value) : Eval Value := intern (v.getD (.mapping []))

/-- The argument, or a new list. -/
def listOr (v : Option Value) : Eval Value := intern (v.getD (.list []))

def newEndpoint (arguments : Arguments) : Eval Value := do
  let kind ← reading fun heap => TriggerKind.ofValue heap (arguments.get "trigger_kind")
  allocate (.endpoint
    { kind
      trigger := ← mappingOr (arguments.get? "trigger")
      entryPoint := (arguments.get? "entry_point").getD (.text [])
      platform := arguments.get "platform"
      labels := ← mappingOr (arguments.get? "labels")
      options := ← mappingOr (arguments.get? "options") })

def newStack (arguments : Arguments) : Eval Value := do
  allocate (.stack
    { endpoints := arguments.get "endpoints"
      requiredApis := ← listOr (arguments.get? "required_apis")
      specVersion := (arguments.get? "spec_version").getD (.text latestSpecVersion)
      params := ← listOr (arguments.get? "params") })

def configOf (arguments : Arguments) : Config :=
  { specVersion := (arguments.get? "spec_version").getD Config.default.specVersion
    includeParams := (arguments.get? "include_params").getD Config.default.includeParams
    entryFile := (arguments.get? "entry_file").getD Config.default.entryFile
    platform := (arguments.get? "platform").getD Config.default.platform }

def makeFunction (call : Caller) (arguments : Arguments) : Eval Value := do
  let trigger ← reading (·.dictionary (arguments.get "trigger"))
  let labels ← reading fun heap => labelEntries heap (arguments.get "labels")
  let endpoint ← fromEntries call (arguments.get "options") fun heap options =>
    Endpoint.make heap (arguments.get "trigger_kind") (.mapping trigger)
      (arguments.get "platform") (.mapping labels) options
  let endpoint ← allocateEndpoint endpoint
  allocate (.function
    ⟨endpoint, arguments.get "func", (arguments.get? "required_apis").getD Heap.emptyTuple⟩)

def FailureClass.kind : FailureClass → FailureKind
  | .framework => .framework
  | .manifest => .manifest
  | .exportName => .exportName
  | .paramValue => .paramValue

/-- The group before a name, as it is shown; a value that says nothing stands for none. -/
def groupOf? (call : Caller) (groups : Value) : Eval (Option Text) := do
  if (← heap).isTruthy groups then
    let group ← match groups with
      | .text groups => pure (.text (Text.trimEnd (· = '-') groups))
      | v => callAttribute call v "rstrip" [.text "-"]
    return some (← reading (·.shown group))
  else return none

/-- A failure that is made and not raised. -/
def newFailure (call : Caller) (c : FailureClass) (arguments : Arguments) : Eval Value := do
  match c with
  | .exportName =>
    let name := arguments.get "name"
    let groups := (arguments.get? "prefix").getD (.text [])
    let group ← groupOf? call groups
    let failure := Failure.dashedName (← reading (·.shown name)) group
    let made ← intern (.tuple [.text failure.message])
    allocate (.failure c.kind made (field "name" name ++ field "prefix" groups))
  | c => allocate (.failure c.kind (← intern (.tuple arguments.rest)) [])

def newApis (items : List Value) : Eval Value := do
  let merged ← reading (·.mergedApis items)
  intern (.list (← merged.mapM allocateApi))

/-- The choices that values stand for. A mapping on its own gives labels to them. -/
def newSelect (many : Bool) (values : List Value) : Eval Value := do
  let heap ← heap
  let labelled := match values with
    | [v] => heap.entries? v
    | _ => none
  allocatePrompt many (choicesOf labelled values)

/-! ## Operations on values -/

/-- The names of the types an object belongs to. -/
def Cell.typesOf : Cell → List Text
  | .param p => p.kind.ancestry.map Text.ofString
  | .secret s => [Text.ofString s.label, "SecretParam"]
  | .formula f => [Text.ofString f.label, "Expression"]
  | .failure kind _ _ => kind.ancestry
  | cell => [cell.type]

def isInstanceOf (v names : Value) : Eval Value := do
  let names ← reading (·.items names)
  let types := (((← heap).cell? v).map Cell.typesOf).getD []
  return .bool (names.any fun name => types.any fun type => name == .text type)

def lengthOf (v : Value) : Eval Value := do
  let heap ← heap
  match heap.size? v with
  | some size => return .int size
  | none => throw (.notSized (heap.type v))

/-- The name that the module at a path gets. -/
def nameOfModule (path isPackage : Value) : Eval Value := do
  match path with
  | .text path => return .text (loadedName (pathParts path) ((← heap).isTruthy isPackage))
  | v => throw (.notFileName (shortType ((← heap).type v)))

/-- The segment may stand for several segments of a path. -/
def isMultiSegment (segment : Value) : Eval Value := do
  match ← cell? segment with
  | some (.segment .multi _) => return .bool true
  | some (.segment .literal content) => return .bool (← reading (·.same content (.text "**")))
  | _ => return .bool false

/-! ## Calling by name -/

def runBuiltin (call : Caller) (b : Builtin) (arguments : Arguments) : Eval Value := do
  let argument := arguments.get
  match b with
  | .declareParam kind => declare call (← newParam kind arguments) (argument "registry")
  | .declareSecret json => declare call (← newSecret json arguments) (argument "registry")
  | .select many => newSelect many arguments.rest
  | .currentRegistry => currentRegistry
  | .clearParams => callAttribute call (← currentRegistry) "clear" []
  | .renderOperand => ((← heap).operand (argument "value")).render (asking call)
  | .splitPath => intern (.list (← partsOf call (argument "path")))
  | .parseSegment =>
    match Segment.ofPart (← matchable (argument "part")) with
    | .literal text => allocate (.segment .literal (.text text))
    | .single name => allocate (.segment .single (.text name))
    | .multi name => allocate (.segment .multi (.text name))
  | .isMultiSegment => isMultiSegment (argument "segment")
  | .splitFilters =>
    let (exact, patterns) ← fromEntries call (argument "filters") fun heap entries =>
      .ok (splitFilters heap entries)
    intern (.tuple [.mapping exact, .mapping patterns])
  | .buildOptions =>
    intern (.named (← fromEntries call (argument "options") buildOptions))
  | .makeFunction => makeFunction call arguments
  | .mergeRequiredApis => newApis (← reading (·.items (argument "required_apis")))
  | .toWireValue => wireOf call (argument "value")
  | .endpointToWire => intern (← endpointWire call (argument "endpoint"))
  | .stackToWire => stackWire call (argument "stack")
  | .renderManifest =>
    return .text (← reading fun heap =>
      renderManifest heap (argument "wire") (.ofValue (argument "fmt")))
  | .trigger name => callTrigger call name arguments
  | .newParam kind => newParam kind arguments
  | .newSecret json => newSecret json arguments
  | .newRegistry => allocate (.registry .empty)
  | .newExpression => allocate (.formula .base)
  | .newParamExpression => newReference (argument "param")
  | .newCompareExpression => newComparison (argument "op") (argument "lhs") (argument "rhs")
  | .newIfElseExpression => newChoice (argument "test") arguments
  | .newTextInput =>
    allocate (.prompt (.text (argument "example") (argument "validation_regex")
      (argument "validation_error_message")))
  | .newSelectOption => allocate (.choice ⟨argument "value", argument "label"⟩)
  | .newSelectInput many => allocate (.prompt (.select many (argument "options")))
  | .newResourceInput => allocate (.prompt (.resource (argument "resource_type")))
  | .newPattern | .compilePattern => newPattern call (argument "raw")
  | .newSegment sort => allocate (.segment sort (argument sort.field))
  | .newRequiredApi => allocateApi ⟨argument "api", argument "reason"⟩
  | .newEndpoint => newEndpoint arguments
  | .newStack => newStack arguments
  | .newReset => allocate .reset
  | .newFunction =>
    allocate (.function ⟨argument "endpoint", argument "invoke",
      (arguments.get? "required_apis").getD Heap.emptyTuple⟩)
  | .newConfig => allocate (.config (configOf arguments))
  | .newFailure c => newFailure call c arguments
  | .moduleName => nameOfModule (argument "path") (argument "is_package")
  | .exported =>
    match argument "name" with
    | .text name => getAttribute call (Heap.exportedModule Export.rootName) name
    | v => throw (.notAttributeName ((← heap).type v))
  | .exportedNames => getAttribute call (Heap.exportedModule Export.rootName) "__all__"
  | .shown => return .text (← reading (·.shown (argument "value")))
  | .printed => return .text (← printed call (argument "value"))
  | .length => lengthOf (argument "value")
  | .toList => intern (.list (← reading (·.items (argument "value"))))
  | .setAttribute =>
    setAttribute (argument "target") (argument "name") (argument "value")
    return .null
  | .equal => return .bool (← reading (·.same (argument "a") (argument "b")))
  | .sameHash =>
    let heap ← heap
    let hash ← MonadExcept.ofExcept (heap.hash (argument "a"))
    return .bool (hash == (← MonadExcept.ofExcept (heap.hash (argument "b"))))
  | .identical => return .bool ((← heap).isOne (argument "a") (argument "b"))
  | .contains => return .bool (← reading (·.contains (argument "c") (argument "x")))
  | .isInstance => isInstanceOf (argument "v") (argument "names")

/-- A constructor has the object that it makes as its first argument, until it is made. -/
def callBuiltin (call : Caller) (b : Builtin) (positional : List Value) (keywords : Fields) :
    Eval Value := do
  let received : List Value := if b.receivesObject then [.null] else []
  let arguments ← MonadExcept.ofExcept (b.signature.bind (received ++ positional) keywords)
  runBuiltin call b arguments

/-! ## Calling values -/

/-- A function that only reports how it was called. -/
def report (label : Text) (positional : List Value) (keywords : Fields) : Eval Value :=
  intern (.list [.text label, .list positional, .named keywords])

def decorator (maker : String) : Signature :=
  { callee := maker ++ ".<locals>.decorator", named := ["f"], required := 1 }

/-- Calls a value. The fuel is how often calls may lead to further ones. -/
def callValue (fuel : Nat) : Caller := fun v positional keywords =>
  match fuel with
  | 0 => throw (.endless "")
  | fuel + 1 => do
    match ← cell? v with
    | some (.callable label _ _) => report label positional keywords
    | some (.function f) => callValue fuel f.invoke positional keywords
    | some (.trigger t _) =>
      let arguments ← MonadExcept.ofExcept ((decorator t.maker).bind positional keywords)
      attach t (arguments.get "f")
    | some (.builtin b) => callBuiltin (callValue fuel) b positional keywords
    | some (.method m self) =>
      let arguments ← MonadExcept.ofExcept (m.signature.bind (self.toList ++ positional) keywords)
      runMethod (callValue fuel) m arguments
    | _ => throw (.notCallable ((← heap).type v))

/-- How deep calls can lead into one another. -/
def callDepth : Nat := 900

def call : Caller := callValue callDepth

/-- Calls an attribute; the name of calling itself stands for the value. -/
def callMethod (v : Value) (name : Text) (positional : List Value) (keywords : Fields) :
    Eval Value := do
  if name = "__call__" then call v positional keywords
  else call (← getAttribute call v name) positional keywords

end FunctionManifest
