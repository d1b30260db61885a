import FunctionManifest.Json.Writer
import FunctionManifest.Yaml.Writer

/-!
# Manifests as texts

A manifest is printed as JSON with an indent of two, or as YAML.
-/

namespace FunctionManifest

inductive OutputFormat where
  | json
  | yaml
  deriving DecidableEq, Inhabited, Repr

namespace OutputFormat

def label : OutputFormat → String
  | .json => "json"
  | .yaml => "yaml"

def all : List OutputFormat := [.json, .yaml]

def ofLabel? (label : Text) : Option OutputFormat := all.find? (label = ·.label)

/-- What is no name of a format stands for JSON. -/
def ofValue : Value → OutputFormat
  | .text label => (ofLabel? label).getD .json
  | _ => .json

end OutputFormat

def renderManifest (heap : Heap) (wire : Value) : OutputFormat → Except Failure Text
  | .json => Json.write heap wire
  | .yaml => Yaml.write heap wire

end FunctionManifest
