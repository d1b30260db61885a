import FunctionManifest.Language.Builtin

/-!
# Methods

What objects can be asked to do. A method is known in messages by its name and the type that brings
it, and the object it is asked of is its first argument.
-/

namespace FunctionManifest

inductive Method where
  | paramReference
  | paramCompare
  | paramEquals
  | paramChoose
  | paramSpec
  | builtinSpec
  | secretSpec (json : Bool)
  | renderBase
  | renderParam
  | renderCompare
  | renderIfElse
  | deferredText
  | compare
  | equals
  | choose
  | textSpec
  | choiceSpec
  | selectSpec (many : Bool)
  | resourceSpec
  | register
  | find
  | specs
  | clear
  | compile
  | hasCaptures
  | hasWildcards
  | extractMatches
  | withEntryPoint
  | withPlatform
  | apiWire
  | append
  | removeAll (mapping : Bool)
  deriving DecidableEq, Inhabited, Repr

namespace Method

def label : Method → String
  | .paramReference => "expr"
  | .paramCompare | .compare => "cmp"
  | .paramEquals | .equals => "equals"
  | .paramChoose | .choose => "then"
  | .paramSpec | .builtinSpec | .secretSpec _ | .textSpec | .choiceSpec | .selectSpec _
  | .resourceSpec => "to_spec"
  | .renderBase | .renderParam | .renderCompare | .renderIfElse => "render"
  | .deferredText => "to_cel"
  | .register => "register"
  | .find => "get"
  | .specs => "specs"
  | .clear => "clear"
  | .compile => "compile"
  | .hasCaptures => "has_captures"
  | .hasWildcards => "has_wildcards"
  | .extractMatches => "extract_matches"
  | .withEntryPoint => "with_entry_point"
  | .withPlatform => "with_platform"
  | .apiWire => "to_wire"
  | .append => "append"
  | .removeAll _ => "clear"

/-- The name of the type that brings the method. -/
def owner : Method → String
  | .paramReference | .paramCompare | .paramEquals | .paramSpec => "Param"
  | .paramChoose => "BooleanParam"
  | .builtinSpec => "BuiltinParam"
  | .secretSpec json => if json then "JSONSecretParam" else "SecretParam"
  | .renderBase | .deferredText => "Expression"
  | .renderParam | .compare | .equals => "ParamExpression"
  | .renderCompare | .choose => "CompareExpression"
  | .renderIfElse => "IfElseExpression"
  | .textSpec => "TextInput"
  | .choiceSpec => "SelectOption"
  | .selectSpec many => if many then "MultiSelectInput" else "SelectInput"
  | .resourceSpec => "ResourceInput"
  | .register | .find | .specs | .clear => "ParamRegistry"
  | .compile | .hasCaptures | .hasWildcards | .extractMatches => "PathPattern"
  | .withEntryPoint | .withPlatform => "ManifestEndpoint"
  | .apiWire => "RequiredAPI"
  | .append => "list"
  | .removeAll mapping => if mapping then "dict" else "list"

/-- Methods of collections, which every value of their type has. -/
def isOfCollection : Method → Bool
  | .append | .removeAll _ => true
  | _ => false

/-- The parameters besides the object itself. -/
def parameters : Method → List String
  | .paramCompare | .compare => ["op", "rhs"]
  | .paramEquals | .equals => ["rhs"]
  | .paramChoose | .choose => ["if_true", "if_false"]
  | .register => ["param"]
  | .find => ["name"]
  | .compile => ["raw"]
  | .extractMatches => ["path"]
  | .withEntryPoint => ["entry_point"]
  | .withPlatform => ["platform"]
  | .append => ["item"]
  | _ => []

def signature (method : Method) : Signature :=
  let first := if method = .compile then "cls" else "self"
  let callee := method.owner ++ "." ++ method.label
  { Builtin.plain callee (first :: method.parameters) with exact := method.isOfCollection }

def ofParam (kind : ParamKind) : List Method :=
  [.paramReference, .paramCompare, .paramEquals,
    if kind = .builtin then .builtinSpec else .paramSpec] ++
    if kind = .boolean then [.paramChoose] else []

def ofRegistry : List Method := [.register, .find, .specs, .clear]

def ofPattern : List Method := [.compile, .hasCaptures, .hasWildcards, .extractMatches]

/-- The methods of the objects that a constructor makes. -/
def ofConstructor : Builtin → List Method
  | .newParam kind => ofParam kind
  | .newSecret json => [.secretSpec json]
  | .newExpression => [.renderBase, .deferredText]
  | .newParamExpression => [.renderParam, .deferredText, .compare, .equals]
  | .newCompareExpression => [.renderCompare, .deferredText, .choose]
  | .newIfElseExpression => [.renderIfElse, .deferredText]
  | .newTextInput => [.textSpec]
  | .newSelectOption => [.choiceSpec]
  | .newSelectInput many => [.selectSpec many]
  | .newResourceInput => [.resourceSpec]
  | .newRegistry => ofRegistry
  | .newPattern => ofPattern
  | .newEndpoint => [.withEntryPoint, .withPlatform]
  | .newRequiredApi => [.apiWire]
  | _ => []

def named? (methods : List Method) (name : Text) : Option Method :=
  methods.find? (name = ·.label)

end Method

end FunctionManifest
