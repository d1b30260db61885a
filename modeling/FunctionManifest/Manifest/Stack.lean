import FunctionManifest.Value.Basic

/-!
# Stacks

Everything found in one function source, and the settings of a discovery run.
-/

namespace FunctionManifest

def latestSpecVersion : String := "v1alpha1"

structure Stack where
  endpoints : Value
  requiredApis : Value
  specVersion : Value
  params : Value
  deriving Inhabited

/-- The manifest. It has params only if the source declares some. -/
def Stack.manifest (endpoints : Entries) (requiredApis : List Value) (specVersion : Value)
    (params : Option Value) : Value :=
  .named
    (field "endpoints" (.mapping endpoints) ++ field "requiredAPIs" (.list requiredApis) ++
      field "specVersion" specVersion ++ fieldIf "params" params)

structure Config where
  specVersion : Value
  includeParams : Value
  /-- Looked up in a directory that is not a package. -/
  entryFile : Value
  platform : Value
  deriving Inhabited

def Config.default : Config :=
  ⟨.text latestSpecVersion, .bool true, .text "main.py", .text "gcfv2"⟩

end FunctionManifest
