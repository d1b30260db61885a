import FunctionManifest.Value.Basic

/-!
# Declarations

A param is declared with a name, which is also the name of the environment variable it is read
from, and with what a deploy tool needs to ask for it. A secret has a name only. A declaration keeps
what it is given; whether that is of use shows when it is read or described.
-/

namespace FunctionManifest

inductive ParamKind where
  | base
  | string
  | int
  | float
  | boolean
  | list
  | json
  | builtin
  deriving DecidableEq, Inhabited, Repr

namespace ParamKind

def label : ParamKind → String
  | .base => "Param"
  | .string => "StringParam"
  | .int => "IntParam"
  | .float => "FloatParam"
  | .boolean => "BooleanParam"
  | .list => "ListParam"
  | .json => "JSONParam"
  | .builtin => "BuiltinParam"

/-- The type that a deploy tool is told. -/
def valueType : ParamKind → String
  | .base | .string | .builtin => "string"
  | .int => "int"
  | .float => "float"
  | .boolean => "boolean"
  | .list => "list"
  | .json => "json"

def all : List ParamKind := [.base, .string, .int, .float, .boolean, .list, .json, .builtin]

/-- The kinds with a declaration of their own. -/
def declared : List ParamKind := [.string, .int, .float, .boolean, .list, .json]

/-- The names of the types that a param of this kind belongs to. -/
def ancestry : ParamKind → List String
  | .base => ["Param"]
  | .builtin => ["BuiltinParam", "StringParam", "Param"]
  | kind => [kind.label, "Param"]

end ParamKind

/-- What is absent is null. -/
structure Param where
  kind : ParamKind
  name : Value
  default : Value
  label : Value
  description : Value
  input : Value
  /-- The key of the platform's document that a built-in param stands for. -/
  configKey : Value
  deriving Inhabited

structure Secret where
  json : Bool
  name : Value
  deriving Inhabited

namespace Param

/-- Params the platform resolves. They are never declared. -/
def builtin (name configKey : String) : Param :=
  ⟨.builtin, .text name, .null, .null, .null, .null, .text configKey⟩

/-- What a deploy tool is told, with the default and the prompt as it reads them. -/
def spec (param : Param) (default : Value) (prompt : Option Value) : Value :=
  .named
    (field "name" param.name ++ field "type" (.text param.kind.valueType) ++
      given "default" default ++ given "label" param.label ++
      given "description" param.description ++ fieldIf "input" prompt)

end Param

def Secret.label (secret : Secret) : String :=
  if secret.json then "JSONSecretParam" else "SecretParam"

def Secret.spec (secret : Secret) : Value :=
  .named
    (field "name" secret.name ++ field "type" (.text "secret") ++
      if secret.json then field "format" (.text "json") else [])

end FunctionManifest
