import FunctionManifest.Heap.Basic
import FunctionManifest.Wire

/-!
# Unfolding

An object as a tree: an expression with what it is made of, and a value by what becomes of it on the
wire. What leads back to itself has no such tree.
-/

namespace FunctionManifest

namespace Heap

def formula? (heap : Heap) (v : Value) : Option Formula :=
  match heap.cell? v with
  | some (.formula f) => some f
  | _ => none

/-- A value that is no expression renders itself. -/
def formulaTree (operand : Value → Operand) (tree : Value → Expression) : Formula → Expression
  | .base => .base
  | .param p => .param p
  | .compare op left right => .compare op (tree left) (operand right)
  | .ifElse test ifTrue ifFalse => .ifElse (tree test) (operand ifTrue) (operand ifFalse)

mutual

def expressionFrom (heap : Heap) (fuel : Nat) (way : List Nat) (v : Value) : Expression :=
  match fuel with
  | 0 => .endless
  | fuel + 1 =>
    match heap.formula? v with
    | some f => formulaTree (heap.operandFrom fuel way) (heap.expressionFrom fuel way) f
    | none => .foreign v

def operandFrom (heap : Heap) (fuel : Nat) (way : List Nat) (v : Value) : Operand :=
  match fuel, v with
  | 0, _ => .endless
  | _, .null => .null
  | _, .bool b => .bool b
  | _, .int n => .int n
  | _, .text t => .text t
  | fuel + 1, v =>
    match heap.cell? v with
    | some (.formula f) =>
      .expression (formulaTree (heap.operandFrom fuel way) (heap.expressionFrom fuel way) f)
    | some (.param _) => .param v
    | _ =>
      match heap.content v, enter? way v with
      | .list _, none | .tuple _, none => .endless
      | .list items, some way => .list (items.map (heap.operandFrom fuel way))
      | .tuple items, some way => .tuple (items.map (heap.operandFrom fuel way))
      | _, _ => .other v

end

/-- The expression that a value is. -/
def expression (heap : Heap) (v : Value) : Expression := heap.expressionFrom depth [] v

/-- The operand that a value makes. -/
def operand (heap : Heap) (v : Value) : Operand := heap.operandFrom depth [] v

def settingFrom (heap : Heap) (fuel : Nat) (way : List Nat) (v : Value) : Setting :=
  match fuel with
  | 0 => .endless
  | fuel + 1 =>
    match heap.cell? v with
    | some (.formula _) => .expression (heap.expression v)
    | some (.param _) => .param v
    | some .reset => .reset
    | some (.pattern p _) => .pattern p.template
    | some (.regex source) => .regex source
    | _ =>
      match heap.content v, enter? way v with
      | .mapping _, none | .list _, none | .tuple _, none => .endless
      | .mapping entries, some way =>
        .mapping (entries.map fun entry => (entry.1, heap.settingFrom fuel way entry.2))
      | .list items, some way => .list (items.map (heap.settingFrom fuel way))
      | .tuple items, some way => .tuple (items.map (heap.settingFrom fuel way))
      | _, _ => .kept v

/-- A value by what becomes of it on the wire. -/
def setting (heap : Heap) (v : Value) : Setting := heap.settingFrom depth [] v

end Heap

end FunctionManifest
