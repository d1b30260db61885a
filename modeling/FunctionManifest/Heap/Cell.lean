import FunctionManifest.Expression.Comparator
import FunctionManifest.Language.Method
import FunctionManifest.Manifest.RequiredApi
import FunctionManifest.Manifest.Stack
import FunctionManifest.Param.Prompt
import FunctionManifest.Path.Pattern
import FunctionManifest.Registry
import FunctionManifest.Trigger.Basic

/-!
# Objects

What is kept at an address. The parts of an object are atoms or references, so objects can be shared
and can lead back to themselves.
-/

namespace FunctionManifest

/-- An expression as it is kept. -/
inductive Formula where
  | base
  | param (p : Value)
  | compare (op : Comparator) (left right : Value)
  | ifElse (test ifTrue ifFalse : Value)
  deriving Inhabited

inductive Cell where
  | list (items : List Value)
  | tuple (items : List Value)
  | mapping (entries : Entries)
  | record (fields : Fields)
  | module (attributes : Fields)
  /-- A function of a source. Without a name of its own it has a label only. -/
  | callable (label : Text) (named : Bool) (attributes : Fields)
  /-- Something the program knows nothing about. -/
  | unknown (label : Text) (attributes : Fields)
  | param (p : Param)
  | secret (s : Secret)
  | formula (f : Formula)
  | reset
  | pattern (p : Pattern) (segments : Value)
  | regex (source : Text)
  | segment (sort : SegmentSort) (content : Value)
  | api (required : RequiredApi)
  | endpoint (e : Endpoint)
  | function (f : CloudFunction)
  | stack (s : Stack)
  | config (c : Config)
  | choice (c : Choice)
  | prompt (p : Prompt)
  /-- A failure that was made and not raised. Its arguments are a tuple. -/
  | failure (kind : FailureKind) (arguments : Value) (attributes : Fields)
  | registry (r : Registry Value)
  | trigger (t : Trigger) (attributes : Fields)
  | builtin (b : Builtin)
  /-- A function that is known by its name only. -/
  | native (label : String)
  /-- A method, with the object it is to be asked of. -/
  | method (m : Method) (self : Option Value)
  deriving Inhabited

namespace Formula

def label : Formula → String
  | .base => "Expression"
  | .param _ => "ParamExpression"
  | .compare .. => "CompareExpression"
  | .ifElse .. => "IfElseExpression"

def parts : Formula → List (String × Value)
  | .base => []
  | .param p => [("param", p)]
  | .compare op left right => [("op", .text op.symbol), ("lhs", left), ("rhs", right)]
  | .ifElse test ifTrue ifFalse => [("test", test), ("if_true", ifTrue), ("if_false", ifFalse)]

end Formula

def Prompt.parts : Prompt → List (String × Value)
  | .text sample pattern complaint =>
    [("example", sample), ("validation_regex", pattern), ("validation_error_message", complaint)]
  | .select _ choices => [("options", choices)]
  | .resource type => [("resource_type", type)]

namespace Cell

/-- The frozen parts of an object by their names. Objects with such parts are compared and described
by them. -/
def parts? : Cell → Option (List (String × Value))
  | .formula .base => none
  | .formula f => some f.parts
  | .segment sort content => some [(sort.field, content)]
  | .api required => some [("api", required.api), ("reason", required.reason)]
  | .endpoint e => some e.fields
  | .function f =>
    some [("endpoint", f.endpoint), ("invoke", f.invoke), ("required_apis", f.requiredApis)]
  | .stack s =>
    some [("endpoints", s.endpoints), ("required_apis", s.requiredApis),
      ("spec_version", s.specVersion), ("params", s.params)]
  | .config c =>
    some [("spec_version", c.specVersion), ("include_params", c.includeParams),
      ("entry_file", c.entryFile), ("platform", c.platform)]
  | .choice c => some [("value", c.value), ("label", c.label)]
  | .prompt p => some p.parts
  | _ => none

/-- The name of an object's type. -/
def type : Cell → Text
  | .list _ => "list"
  | .tuple _ => "tuple"
  | .mapping _ => "dict"
  | .record _ => "types.SimpleNamespace"
  | .module _ => "module"
  | .callable _ named _ => if named then "function" else "Nameless"
  | .unknown .. => "Opaque"
  | .param p => p.kind.label
  | .secret s => s.label
  | .formula f => f.label
  | .reset => "ResetValue"
  | .pattern .. => "PathPattern"
  | .regex _ => "re.Pattern"
  | .segment sort _ => sort.label
  | .api _ => "RequiredAPI"
  | .endpoint _ => "ManifestEndpoint"
  | .function _ => "CloudFunction"
  | .stack _ => "ManifestStack"
  | .config _ => "StackConfig"
  | .choice _ => "SelectOption"
  | .prompt p => p.label
  | .failure kind _ _ => kind.label
  | .registry _ => "ParamRegistry"
  | .trigger .. | .native _ => "function"
  | .builtin b => if b.isConstructor then "type" else "function"
  | .method m self =>
    if m.isOfCollection then "builtin_function_or_method"
    else if self.isSome then "method" else "function"

/-- The constructor of an object's type. -/
def constructor? : Cell → Option Builtin
  | .param p => some (.newParam p.kind)
  | .secret s => some (.newSecret s.json)
  | .formula .base => some .newExpression
  | .formula (.param _) => some .newParamExpression
  | .formula (.compare ..) => some .newCompareExpression
  | .formula (.ifElse ..) => some .newIfElseExpression
  | .reset => some .newReset
  | .pattern .. => some .newPattern
  | .segment sort _ => some (.newSegment sort)
  | .api _ => some .newRequiredApi
  | .endpoint _ => some .newEndpoint
  | .function _ => some .newFunction
  | .stack _ => some .newStack
  | .config _ => some .newConfig
  | .choice _ => some .newSelectOption
  | .prompt (.text ..) => some .newTextInput
  | .prompt (.select many _) => some (.newSelectInput many)
  | .prompt (.resource _) => some .newResourceInput
  | .registry _ => some .newRegistry
  | _ => none

/-- The methods of an object. -/
def methods (cell : Cell) : List Method :=
  match cell with
  | .list _ => [.append, .removeAll false]
  | .mapping _ => [.removeAll true]
  | cell => (cell.constructor?.map Method.ofConstructor).getD []

end Cell

/-- The last part of a type's name. -/
def shortType (type : Text) : Text := (Text.split '.' type).getLastD type

end FunctionManifest
