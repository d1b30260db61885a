import FunctionManifest.Language.Signature
import FunctionManifest.Param.Declaration

/-!
# What a source can call

The names that sources and scripts have at hand: declarations, triggers, the constructors of all
objects, and operations on values.
-/

namespace FunctionManifest

inductive TriggerName where
  | request
  | call
  | schedule
  | event
  | message
  | storage
  deriving DecidableEq, Inhabited, Repr

namespace TriggerName

def label : TriggerName → String
  | .request => "on_request"
  | .call => "on_call"
  | .schedule => "on_schedule"
  | .event => "on_event"
  | .message => "on_message_published"
  | .storage => "on_object_finalized"

def all : List TriggerName := [.request, .call, .schedule, .event, .message, .storage]

def ofLabel? (label : Text) : Option TriggerName := all.find? (label = ·.label)

def signature (trigger : TriggerName) : Signature :=
  let callee := trigger.label
  match trigger with
  | .request =>
    { callee, named := ["func"], required := 0, keywords := ["invoker", "labels"]
      extensible := true }
  | .call =>
    { callee, named := ["func"], required := 0, keywords := ["labels"], extensible := true }
  | .schedule =>
    { callee, named := ["schedule"], required := 1
      keywords := ["timezone", "labels", "retry_count", "max_retry_duration",
        "min_backoff_duration", "max_backoff_duration", "max_doublings"]
      extensible := true }
  | .event =>
    { callee, named := ["event_type"], required := 1
      keywords := ["filters", "channel", "retry", "event_region", "labels", "required_apis"]
      extensible := true }
  | .message =>
    { callee, named := ["topic"], required := 1, keywords := ["retry"], extensible := true }
  | .storage =>
    { callee, named := ["bucket"], required := 1, keywords := ["retry"], extensible := true }

end TriggerName

inductive SegmentSort where
  | literal
  | single
  | multi
  deriving DecidableEq, Inhabited, Repr

def SegmentSort.label : SegmentSort → String
  | .literal => "Literal"
  | .single => "SingleCapture"
  | .multi => "MultiCapture"

/-- The name of a segment's only field. -/
def SegmentSort.field : SegmentSort → String
  | .literal => "text"
  | .single | .multi => "name"

/-- The failures that can be made without raising them. -/
inductive FailureClass where
  | framework
  | manifest
  | exportName
  | paramValue
  deriving DecidableEq, Inhabited, Repr

inductive Builtin where
  | declareParam (kind : ParamKind)
  | declareSecret (json : Bool)
  | select (many : Bool)
  | currentRegistry
  | clearParams
  | renderOperand
  | splitPath
  | parseSegment
  | isMultiSegment
  | splitFilters
  | buildOptions
  | makeFunction
  | mergeRequiredApis
  | toWireValue
  | endpointToWire
  | stackToWire
  | renderManifest
  | trigger (name : TriggerName)
  | newParam (kind : ParamKind)
  | newSecret (json : Bool)
  | newRegistry
  | newExpression
  | newParamExpression
  | newCompareExpression
  | newIfElseExpression
  | newTextInput
  | newSelectOption
  | newSelectInput (many : Bool)
  | newResourceInput
  | newPattern
  | newSegment (sort : SegmentSort)
  | newRequiredApi
  | newEndpoint
  | newStack
  | newReset
  | newFunction
  | newConfig
  | newFailure (kind : FailureClass)
  | moduleName
  | exported
  | exportedNames
  | compilePattern
  | shown
  | printed
  | length
  | toList
  | setAttribute
  | equal
  | sameHash
  | identical
  | contains
  | isInstance
  deriving DecidableEq, Inhabited, Repr

namespace Builtin

def all : List Builtin :=
  ParamKind.declared.map .declareParam ++ [.declareSecret false, .declareSecret true, .select false,
    .select true, .currentRegistry, .clearParams, .renderOperand, .splitPath, .parseSegment,
    .isMultiSegment, .splitFilters, .buildOptions, .makeFunction, .mergeRequiredApis, .toWireValue,
    .endpointToWire, .stackToWire, .renderManifest] ++ TriggerName.all.map .trigger ++
    ParamKind.all.map .newParam ++ [.newSecret false, .newSecret true, .newRegistry, .newExpression,
    .newParamExpression, .newCompareExpression, .newIfElseExpression, .newTextInput,
    .newSelectOption, .newSelectInput false, .newSelectInput true, .newResourceInput, .newPattern,
    .newSegment .literal, .newSegment .single, .newSegment .multi, .newRequiredApi, .newEndpoint,
    .newStack, .newReset, .newFunction, .newConfig, .newFailure .framework, .newFailure .manifest,
    .newFailure .exportName, .newFailure .paramValue, .moduleName, .exported, .exportedNames,
    .compilePattern, .shown, .printed, .length, .toList, .setAttribute, .equal, .sameHash,
    .identical, .contains, .isInstance]

def declarationLabel : ParamKind → String
  | .base => "get_param"
  | .string => "get_string"
  | .int => "get_int"
  | .float => "get_float"
  | .boolean => "get_boolean"
  | .list => "get_list"
  | .json => "get_json"
  | .builtin => "get_builtin"

def label : Builtin → String
  | .declareParam kind => declarationLabel kind
  | .declareSecret json => if json then "get_json_secret" else "get_secret"
  | .select many => if many then "multi_select" else "select"
  | .currentRegistry => "current_registry"
  | .clearParams => "clear_params"
  | .renderOperand => "render_operand"
  | .splitPath => "split_path"
  | .parseSegment => "parse_segment"
  | .isMultiSegment => "is_multi_segment"
  | .splitFilters => "split_filters"
  | .buildOptions => "build_options"
  | .makeFunction => "make_function"
  | .mergeRequiredApis => "merge_required_apis"
  | .toWireValue => "to_wire_value"
  | .endpointToWire => "endpoint_to_wire"
  | .stackToWire => "stack_to_wire"
  | .renderManifest => "render_manifest"
  | .trigger name => name.label
  | .newParam kind => kind.label
  | .newSecret json => if json then "JSONSecretParam" else "SecretParam"
  | .newRegistry => "ParamRegistry"
  | .newExpression => "Expression"
  | .newParamExpression => "ParamExpression"
  | .newCompareExpression => "CompareExpression"
  | .newIfElseExpression => "IfElseExpression"
  | .newTextInput => "TextInput"
  | .newSelectOption => "SelectOption"
  | .newSelectInput many => if many then "MultiSelectInput" else "SelectInput"
  | .newResourceInput => "ResourceInput"
  | .newPattern => "PathPattern"
  | .newSegment sort => sort.label
  | .newRequiredApi => "RequiredAPI"
  | .newEndpoint => "ManifestEndpoint"
  | .newStack => "ManifestStack"
  | .newReset => "ResetValue"
  | .newFunction => "CloudFunction"
  | .newConfig => "StackConfig"
  | .newFailure .framework => "FuncstackError"
  | .newFailure .manifest => "ManifestError"
  | .newFailure .exportName => "InvalidExportNameError"
  | .newFailure .paramValue => "ParamValueError"
  | .moduleName => "module_name"
  | .exported => "public"
  | .exportedNames => "public_names"
  | .compilePattern => "compile_pattern"
  | .shown => "repr"
  | .printed => "str"
  | .length => "len"
  | .toList => "list"
  | .setAttribute => "setattr"
  | .equal => "eq"
  | .sameHash => "same_hash"
  | .identical => "is"
  | .contains => "contains"
  | .isInstance => "isinstance"

def ofLabel? (label : Text) : Option Builtin := all.find? (label = ·.label)

/-- The builtin makes an object of the type it is named for. -/
def isConstructor : Builtin → Bool
  | .newParam _ | .newSecret _ | .newRegistry | .newExpression | .newParamExpression
  | .newCompareExpression | .newIfElseExpression | .newTextInput | .newSelectOption
  | .newSelectInput _ | .newResourceInput | .newPattern | .newSegment _ | .newRequiredApi
  | .newEndpoint | .newStack | .newReset | .newFunction | .newConfig | .newFailure _ => true
  | _ => false

/-- The object that a constructor makes, or the type it belongs to, is its first argument. -/
def receivesObject (builtin : Builtin) : Bool :=
  match builtin with
  | .newExpression | .newReset => false
  | .newFailure kind => kind = .exportName
  | .compilePattern => true
  | builtin => builtin.isConstructor

/-- Parameters besides the name that every declaration takes. -/
def declarationKeywords : List String := ["default", "label", "description", "input"]

/-- A function of named parameters, none of which can be left out. -/
def plain (callee : String) (named : List String) : Signature :=
  { callee, named, required := named.length }

/-- The first `required` parameters have no default. -/
def constructor (owner : String) (named : List String) (required : Nat) : Signature :=
  { callee := owner ++ ".__init__", named := "self" :: named, required := required + 1 }

def signature (builtin : Builtin) : Signature :=
  let callee := builtin.label
  match builtin with
  | .declareParam _ =>
    { callee, named := ["name"], required := 1, keywords := declarationKeywords ++ ["registry"] }
  | .declareSecret _ => { callee, named := ["name"], required := 1, keywords := ["registry"] }
  | .select _ => { callee, named := [], required := 0, variadic := true }
  | .currentRegistry | .clearParams | .exportedNames => plain callee []
  | .newExpression | .newReset => { callee, named := [], required := 0, bare := true }
  | .newRegistry => constructor callee [] 0
  | .renderOperand | .toWireValue => plain callee ["value"]
  | .splitPath => plain callee ["path"]
  | .parseSegment => plain callee ["part"]
  | .isMultiSegment => plain callee ["segment"]
  | .splitFilters => plain callee ["filters"]
  | .buildOptions => plain callee ["options"]
  | .makeFunction =>
    { callee, named := ["func"], required := 1
      keywords := ["labels", "platform", "required_apis"]
      requiredKeywords := ["trigger_kind", "trigger", "options"] }
  | .mergeRequiredApis => plain callee ["required_apis"]
  | .endpointToWire => plain callee ["endpoint"]
  | .stackToWire => plain callee ["stack"]
  | .renderManifest => plain callee ["wire", "fmt"]
  | .trigger name => name.signature
  | .newParam .builtin => constructor callee ["name", "config_key"] 2
  | .newParam _ => { constructor "Param" ["name"] 1 with keywords := declarationKeywords }
  | .newSecret _ => constructor "SecretParam" ["name"] 1
  | .newParamExpression => constructor callee ["param"] 1
  | .newCompareExpression => constructor callee ["op", "lhs", "rhs"] 3
  | .newIfElseExpression => constructor callee ["test", "if_true", "if_false"] 3
  | .newTextInput =>
    constructor callee ["example", "validation_regex", "validation_error_message"] 0
  | .newSelectOption => constructor callee ["value", "label"] 1
  | .newSelectInput _ => constructor callee ["options"] 1
  | .newResourceInput => constructor callee ["resource_type"] 1
  | .newPattern => constructor callee ["raw"] 1
  | .compilePattern => plain "PathPattern.compile" ["cls", "raw"]
  | .newSegment sort => constructor callee [sort.field] 1
  | .newRequiredApi => constructor callee ["api", "reason"] 2
  | .newEndpoint =>
    constructor callee
      ["trigger_kind", "trigger", "entry_point", "platform", "labels", "options"] 1
  | .newStack => constructor callee ["endpoints", "required_apis", "spec_version", "params"] 1
  | .newFunction => constructor callee ["endpoint", "invoke", "required_apis"] 2
  | .newConfig => constructor callee ["spec_version", "include_params", "entry_file", "platform"] 0
  | .newFailure .exportName => constructor callee ["name", "prefix"] 1
  | .newFailure _ =>
    { callee, named := [], required := 0, variadic := true, positionalOnly := true }
  | .moduleName => plain callee ["path", "is_package"]
  | .exported => plain callee ["name"]
  | .shown | .printed | .length | .toList => plain callee ["value"]
  | .setAttribute => plain callee ["target", "name", "value"]
  | .equal | .sameHash | .identical => plain callee ["a", "b"]
  | .contains => plain callee ["c", "x"]
  | .isInstance => plain callee ["v", "names"]

end Builtin

end FunctionManifest
