import FunctionManifest.Expression.Tree
import FunctionManifest.Heap.Stored

/-!
# How values are shown

A value is shown in a description: texts are quoted, and an object that is frozen shows its parts by
their names. What leads back to itself is marked where it is met again.
-/

namespace FunctionManifest

/-- A tuple of one item keeps its comma. -/
def tupleText (items : List Text) : Text :=
  match items with
  | [item] => "(" ++ item ++ ",)"
  | items => "(" ++ Text.join ", " items ++ ")"

def braced (entries : List Text) : Text := "\x7b" ++ Text.join ", " entries ++ "\x7d"

/-- How an object with named parts is shown. -/
def describe (label : Text) (parts : List Text) : Text :=
  label ++ "(" ++ Text.join ", " parts ++ ")"

/-- What stands for an object inside itself. Objects that only name others have no mark. -/
def Cell.mark? : Cell → Option Text
  | .list _ => some "[...]"
  | .tuple _ => some "(...)"
  | .mapping _ => some "\x7b...\x7d"
  | .record _ => some "namespace(...)"
  | cell => cell.parts?.map fun _ => "..."

def moduleShown (name file : Option Text) : Text :=
  let nameShown := name.getD "'?'"
  match file with
  | some file => "<module " ++ nameShown ++ " from " ++ file ++ ">"
  | none => "<module " ++ nameShown ++ ">"

def Builtin.description (b : Builtin) : Text :=
  let place : Text := (b.home?.map fun home => Text.ofString (home ++ ".")).getD ""
  if b.isConstructor then "<class '" ++ place ++ b.label ++ "'>" else "<function " ++ b.label ++ ">"

section

variable (heap : Heap) (show? : Value → Except Failure Text)

def shownEntries : Entries → Except Failure (List Text)
  | [] => .ok []
  | (k, v) :: rest => do
    let key ← show? k
    let value ← show? v
    return (key ++ ": " ++ value) :: (← shownEntries rest)

def shownParts : Fields → Except Failure (List Text)
  | [] => .ok []
  | (name, v) :: rest => do
    let value ← show? v
    let rest ← shownParts rest
    return (name ++ "=" ++ value) :: rest

/-- The name that a function goes by: that of what it calls, or else how that is shown. -/
def CloudFunction.name (f : CloudFunction) : Except Failure Value := do
  let shown ← show? f.invoke
  return (heap.stored? f.invoke "__name__").getD (.text shown)

/-- The name of an object that has one. -/
def Heap.memberName (v : Value) : Except Failure Value :=
  match heap.cell? v with
  | some (.function f) => f.name heap show?
  | _ =>
    match heap.stored? v "name" with
    | some name => .ok name
    | none => .error (heap.missing v "name")

/-- How a failure is shown: one argument by itself, and several as a tuple. -/
def failureShown (kind : FailureKind) (arguments : Value) : Except Failure Text :=
  match heap.content arguments with
  | .tuple [v] => do return describe kind.label [← show? v]
  | _ => do return kind.label ++ (← show? arguments)

/-- How an object is shown, given how its parts are. -/
def Cell.shown : Cell → Except Failure Text
  | .list items => do return bracketed (← items.mapM show?)
  | .tuple items => do return tupleText (← items.mapM show?)
  | .mapping entries => do return braced (← shownEntries show? entries)
  | .record fields => do
    return describe "namespace" (← shownParts show? (fields.filter fun field => field.1 ≠ []))
  | .module attributes => do
    let name ← (Assoc.get? attributes (Text.ofString "__name__")).mapM show?
    let file ← (Assoc.get? attributes (Text.ofString "__file__")).mapM show?
    return moduleShown name file
  | .callable label named _ =>
    .ok (if named then "<function " ++ label ++ ">" else "<callable " ++ label ++ ">")
  | .unknown label _ => .ok ("<opaque " ++ label ++ ">")
  | .param p => do return describe p.kind.label [← show? p.name]
  | .secret s => do return describe s.label [← show? s.name]
  | .reset => .ok "RESET_VALUE"
  | .pattern p _ => .ok (describe "PathPattern" [Text.quoted p.template])
  | .regex source => .ok (Text.Pattern.shown source)
  | .failure kind arguments _ => failureShown heap show? kind arguments
  | .registry r => do
    let names ← r.entries.mapM (heap.memberName show?)
    return describe "ParamRegistry" [← show? (.list names)]
  | .trigger t _ => .ok ("<function " ++ t.maker ++ ".<locals>.decorator>")
  | .builtin b => .ok b.description
  | .native label => .ok ("<function " ++ label ++ ">")
  | .method m _ => .ok ("<bound method " ++ m.owner ++ "." ++ m.label ++ ">")
  | cell =>
    match cell.parts? with
    | some parts => do
      let fields := parts.map fun part => (Text.ofString part.1, part.2)
      return describe cell.type (← shownParts show? fields)
    | none => .ok ("<" ++ cell.type ++ " object>")

end

namespace Heap

/-- How a value is shown. The way has the addresses of the objects around it. -/
def shownFrom (heap : Heap) (fuel : Nat) (way : List Nat) (v : Value) : Except Failure Text :=
  match fuel with
  | 0 => .error (.endless " while getting the repr of an object")
  | fuel + 1 =>
    match v with
    | .null => .ok "None"
    | .bool b => .ok (if b then "True" else "False")
    | .int n => intText n
    | .float x => .ok x.text
    | .text t => .ok (Text.quoted t)
    | .list items => Cell.shown heap (heap.shownFrom fuel way) (.list items)
    | .tuple items => Cell.shown heap (heap.shownFrom fuel way) (.tuple items)
    | .mapping entries => Cell.shown heap (heap.shownFrom fuel way) (.mapping entries)
    | .ref address =>
      match heap.cells[address]? with
      | none => .ok "<object>"
      | some cell =>
        match cell.mark? with
        | none => cell.shown heap (heap.shownFrom fuel way)
        | some mark =>
          if address ∈ way then .ok mark
          else cell.shown heap (heap.shownFrom fuel (address :: way))

def shown (heap : Heap) (v : Value) : Except Failure Text := heap.shownFrom depth [] v

end Heap

end FunctionManifest
