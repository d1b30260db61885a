/-!
# Syntax trees

A source is executed as a coroutine if something in it suspends outside every function. The scan
looks at the nodes below the root, and does not enter functions.
-/

namespace FunctionManifest

inductive NodeKind where
  | function
  | asyncFunction
  | lambda
  | arguments
  | classBody
  | generator
  | comprehension (isAsync : Bool)
  | await
  | asyncFor
  | asyncWith
  | other (label : String)
  deriving DecidableEq, Inhabited, Repr

namespace NodeKind

/-- Opens the scope of a function. -/
def opensScope : NodeKind → Bool
  | .function | .asyncFunction | .lambda => true
  | _ => false

/-- Suspends the code it stands in. -/
def suspends : NodeKind → Bool
  | .await | .asyncFor | .asyncWith => true
  | .comprehension isAsync => isAsync
  | _ => false

/-- The kind by the name of its class. -/
def ofLabel (label : String) (isAsync : Bool) : NodeKind :=
  match label with
  | "FunctionDef" => .function
  | "AsyncFunctionDef" => .asyncFunction
  | "Lambda" => .lambda
  | "arguments" => .arguments
  | "ClassDef" => .classBody
  | "GeneratorExp" => .generator
  | "comprehension" => .comprehension isAsync
  | "Await" => .await
  | "AsyncFor" => .asyncFor
  | "AsyncWith" => .asyncWith
  | label => .other label

end NodeKind

inductive Node where
  | mk (kind : NodeKind) (children : List Node)
  deriving Inhabited, Repr

namespace Node

def kind : Node → NodeKind
  | .mk kind _ => kind

mutual

/-- Something below the node suspends, outside every function. -/
def hasTopLevelAwait : Node → Bool
  | .mk _ children => anyTopLevelAwait children

def anyTopLevelAwait : List Node → Bool
  | [] => false
  | child :: rest =>
    (!child.kind.opensScope && (child.kind.suspends || child.hasTopLevelAwait)) ||
      anyTopLevelAwait rest

end

/-! ## Where suspending is allowed -/

/-- Inside these children of a node suspending is allowed, if it is around the node. Arguments are
computed around a function, not in it. -/
def allowsWithin (kind : NodeKind) (allowed isArguments : Bool) : Bool :=
  match kind with
  | .function | .lambda => isArguments && allowed
  | .asyncFunction => !isArguments || allowed
  | .classBody => false
  | _ => allowed

mutual

/-- Everything that suspends stands where that is allowed. A generator brings its own scope, so its
comprehensions may always suspend. -/
def compiles (allowed inGenerator : Bool) : Node → Bool
  | .mk kind children =>
    (!kind.suspends || allowed || inGenerator) && allCompile kind allowed children

def allCompile (parent : NodeKind) (allowed : Bool) : List Node → Bool
  | [] => true
  | child :: rest =>
    child.compiles (allowsWithin parent allowed (child.kind == .arguments))
        (parent == .generator) &&
      allCompile parent allowed rest

end

end Node

end FunctionManifest
