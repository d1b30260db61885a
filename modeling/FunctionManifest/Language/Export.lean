import FunctionManifest.Language.Builtin
import FunctionManifest.Language.Constant

/-!
# Exports

The modules that the program offers, and what each of them has. A package has its modules, and most
of what they define.
-/

namespace FunctionManifest

/-- The module that defines a builtin; none for what the language brings itself. -/
def Builtin.home? : Builtin → Option String
  | .declareParam _ | .declareSecret _ => some "funcstack.params.define"
  | .select _ | .newTextInput | .newSelectOption | .newSelectInput _ | .newResourceInput =>
    some "funcstack.params.inputs"
  | .currentRegistry | .clearParams | .newRegistry => some "funcstack.params.registry"
  | .newParam _ | .newSecret _ => some "funcstack.params.types"
  | .renderOperand | .newExpression | .newParamExpression | .newCompareExpression
  | .newIfElseExpression => some "funcstack.expressions"
  | .splitPath | .parseSegment | .newPattern => some "funcstack.paths.pattern"
  | .isMultiSegment | .newSegment _ => some "funcstack.paths.segments"
  | .trigger .request | .trigger .call => some "funcstack.triggers.https"
  | .trigger .schedule => some "funcstack.triggers.scheduler"
  | .splitFilters | .trigger _ => some "funcstack.triggers.events"
  | .buildOptions | .makeFunction => some "funcstack.triggers.options"
  | .mergeRequiredApis => some "funcstack.runtime.loader"
  | .toWireValue | .endpointToWire | .stackToWire | .newReset | .newRequiredApi | .newEndpoint
  | .newStack => some "funcstack.runtime.manifest"
  | .newFunction => some "funcstack.runtime.function"
  | .newConfig => some "funcstack.config"
  | .newFailure _ => some "funcstack.errors"
  | _ => none

def Constant.home : Constant → String
  | .reset => "funcstack.runtime.manifest"
  | .bucketPicker => "funcstack.params.inputs"
  | _ => "funcstack.params.builtin"

/-- A package leaves this to the module that defines it. -/
def Builtin.staysInside : Builtin → Bool
  | .isMultiSegment | .splitFilters | .buildOptions | .makeFunction | .toWireValue
  | .endpointToWire | .newReset => true
  | _ => false

inductive Export where
  | builtin (b : Builtin)
  | constant (c : Constant)
  | module (name : String)
  | native (label : String)
  | text (t : String)
  | list (items : List String)

namespace Export

/-- The names the program exports, sorted as it lists them. -/
def names : List String :=
  ["RESET_VALUE", "CloudFunction", "FuncstackError", "InvalidExportNameError", "ManifestEndpoint",
    "ManifestError", "ManifestStack", "ParamValueError", "PathPattern", "RequiredAPI",
    "StackConfig", "load_stack", "stack_to_wire"]

def rootName : String := "funcstack"

/-- The packages below the root, with their modules. -/
def packages : List (String × List String) :=
  [("funcstack.params", ["builtin", "define", "inputs", "registry", "types"]),
    ("funcstack.paths", ["pattern", "segments"]),
    ("funcstack.runtime", ["function", "loader", "manifest"]),
    ("funcstack.triggers", ["events", "https", "options", "scheduler"])]

def singleModules : List String :=
  ["funcstack.cli", "funcstack.config", "funcstack.errors", "funcstack.expressions"]

def modulesBelow (package : String × List String) : List String :=
  package.2.map fun part => package.1 ++ "." ++ part

/-- All modules, the root first. -/
def moduleNames : List String :=
  rootName :: singleModules ++ packages.flatMap fun package => package.1 :: modulesBelow package

def definedIn (home : String) : List (String × Export) :=
  ((Builtin.all.filter (·.home? = some home)).map fun b => (b.label, builtin b)) ++
    (Constant.all.filter (·.home = home)).map fun c => (c.label, constant c)

def isPassedOn : Export → Bool
  | .builtin b => !b.staysInside
  | _ => true

def passedOn (package : String × List String) : List (String × Export) :=
  (((modulesBelow package).flatMap definedIn).filter fun entry => isPassedOn entry.2) ++
    package.2.map fun part => (part, module (package.1 ++ "." ++ part))

/-- The last part of a module's name. -/
def lastPart (name : String) : String :=
  String.ofList (name.toList.reverse.takeWhile (· ≠ '.')).reverse

/-- What the root gives under an exported name. -/
def ofName (name : String) : Export :=
  match Constant.ofLabel? name, Builtin.ofLabel? name with
  | some c, _ => constant c
  | none, some b => builtin b
  | none, none => native name

/-- What the root has when it is asked for it. -/
def onDemand : List (String × Export) := names.map fun name => (name, ofName name)

def ofRoot : List (String × Export) :=
  [("__version__", text "0.1.0"), ("__all__", list names)] ++
    (singleModules ++ packages.map (·.1)).map fun name => (lastPart name, module name)

/-- What a module has besides its name. -/
def ofModule (name : String) : List (String × Export) :=
  if name = rootName then ofRoot
  else
    match packages.find? (·.1 = name) with
    | some package => passedOn package
    | none => definedIn name

end Export

end FunctionManifest
