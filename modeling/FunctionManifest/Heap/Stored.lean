import FunctionManifest.Heap.Basic
import FunctionManifest.Text.Pattern

/-!
# Stored attributes

The attributes of an object that are there without computing anything.
-/

namespace FunctionManifest

/-- The numbers of the flags, as their sum is read off an expression. -/
def Text.Pattern.Flag.number : Text.Pattern.Flag → Nat
  | .ignoreCase => 2
  | .multiline => 8
  | .dotAll => 16
  | .verbose => 64
  | .ascii => 256

def regexFlags (source : Text) : Nat :=
  let flags := Text.Pattern.flags source
  (flags.map Text.Pattern.Flag.number).foldl (· + ·) (if flags.contains .ascii then 0 else 32)

def Param.stored? (p : Param) (name : String) : Option Value :=
  match name with
  | "name" => some p.name
  | "default" => some p.default
  | "label" => some p.label
  | "description" => some p.description
  | "input" => some p.input
  | "value_type" => some (.text p.kind.valueType)
  | "config_key" => if p.kind = .builtin then some p.configKey else none
  | _ => none

def Secret.stored? (s : Secret) (name : String) : Option Value :=
  match name with
  | "name" => some s.name
  | "value_type" => some (.text "secret")
  | _ => none

/-- What objects have that are called by a name. -/
def Cell.calledName? : Cell → Option Value
  | .callable label true _ => some (.text label)
  | .trigger .. => some (.text "decorator")
  | .builtin b => some (.text b.label)
  | .native label => some (.text label)
  | .method m _ => some (.text m.label)
  | _ => none

/-- The attributes that an object was given besides what it is. -/
def Cell.attributes : Cell → Fields
  | .record fields | .module fields | .callable _ _ fields | .unknown _ fields
  | .failure _ _ fields | .trigger _ fields => fields
  | _ => []

/-- A module is known by its name as long as that is a text. -/
def moduleName? (attributes : Fields) : Option Text :=
  match Assoc.get? attributes (Text.ofString "__name__") with
  | some (.text name) => some name
  | _ => none

def Cell.fixed? (cell : Cell) (name : String) : Option Value :=
  match cell, name with
  | .param p, name => p.stored? name
  | .secret s, name => s.stored? name
  | .pattern p _, "value" => some (.text p.template)
  | .pattern _ segments, "segments" => some segments
  | .regex source, "pattern" => some (.text source)
  | .regex source, "flags" => some (.int (regexFlags source))
  | .failure _ arguments _, "args" => some arguments
  | .builtin (.newParam kind), "value_type" => some (.text kind.valueType)
  | .builtin (.newSecret _), "value_type" => some (.text "secret")
  | cell, "__name__" => cell.calledName?
  | cell, name => cell.parts?.bind (·.lookup name)

def Cell.stored? (cell : Cell) (name : Text) : Option Value :=
  (Assoc.get? cell.attributes name).orElse fun _ => cell.fixed? name.spelled

namespace Heap

/-- The root module of the program also has the names it exports. -/
def exportedName? (name : Text) : Option Value :=
  (Export.onDemand.find? (name = ·.1)).map fun entry => exported entry.2

def stored? (heap : Heap) (v : Value) (name : Text) : Option Value :=
  ((heap.cell? v).bind (·.stored? name)).orElse fun _ =>
    if v == exportedModule Export.rootName then exportedName? name else none

/-- The failure of looking for an attribute that is not there. -/
def missing (heap : Heap) (v : Value) (name : Text) : Failure :=
  if v == exportedModule Export.rootName then .noExport name
  else
    match heap.cell? v with
    | some (.module attributes) => .noMember (moduleName? attributes) name
    | some (.builtin b) =>
      if b.isConstructor then .noTypeAttribute b.label name else .noAttribute "function" name
    | _ => .noAttribute (heap.type v) name

end Heap

end FunctionManifest
