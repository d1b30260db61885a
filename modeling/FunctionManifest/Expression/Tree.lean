import FunctionManifest.Expression.Comparator
import FunctionManifest.Json.Text
import FunctionManifest.Value.Basic

/-!
# Expressions

An expression is deferred: it is rendered, never computed. Rendering has no brackets around an
expression: what is compared or chosen follows in the order of the tree. Of the values it holds, a
tree only asks for their names and texts, and so it says nothing about where they are kept.
-/

namespace FunctionManifest

mutual

inductive Expression where
  /-- An expression of no kind; it has no text. -/
  | base
  /-- Stands for what has this param's name. -/
  | param (p : Value)
  | compare (op : Comparator) (left : Expression) (right : Operand)
  | ifElse (test : Expression) (ifTrue ifFalse : Operand)
  /-- Something else that renders itself. -/
  | foreign (v : Value)
  /-- An expression that is nested without end. -/
  | endless

inductive Operand where
  | expression (e : Expression)
  | param (p : Value)
  | null
  | bool (b : Bool)
  | int (n : Int)
  | text (t : Text)
  | list (items : List Operand)
  | tuple (items : List Operand)
  /-- All else is printed. -/
  | other (v : Value)
  /-- An operand that never ends, because a list in it holds itself. -/
  | endless

end

instance : Inhabited Expression := ⟨.base⟩

instance : Inhabited Operand := ⟨.null⟩

/-- What rendering asks about values. -/
structure Asking (m : Type → Type) where
  name : Value → m Value
  render : Value → m Value
  printed : Value → m Text
  type : Value → m Text

section

variable {m : Type → Type} [Monad m] [MonadExceptOf Failure m]

/-- A text as it is, and any other value printed. -/
def Asking.text (ask : Asking m) : Value → m Text
  | .text t => pure t
  | v => ask.printed v

/-- All items must be texts to be joined. -/
def Asking.joinable (ask : Asking m) (index : Nat) : List Value → m (List Text)
  | [] => pure []
  | .text t :: rest => do return t :: (← ask.joinable (index + 1) rest)
  | v :: _ => do throw (.notText index (← ask.type v))

def bracketed (items : List Text) : Text := "[" ++ Text.join ", " items ++ "]"

mutual

/-- The text of an expression. What has only a name may have one that is no text. -/
def Expression.render (ask : Asking m) : Expression → m Value
  | .base => throw .noValue
  | .param p => ask.name p
  | .foreign v => ask.render v
  | .endless => throw (.endless "")
  | .compare op left right => do
    let left ← ask.text (← left.render ask)
    let right ← ask.text (← right.render ask)
    return .text (left ++ " " ++ op.symbol ++ " " ++ right)
  | .ifElse test ifTrue ifFalse => do
    let test ← ask.text (← test.render ask)
    let ifTrue ← ask.text (← ifTrue.render ask)
    let ifFalse ← ask.text (← ifFalse.render ask)
    return .text (test ++ " ? " ++ ifTrue ++ " : " ++ ifFalse)

/-- An operand: a literal, the name of a param, or a nested expression. -/
def Operand.render (ask : Asking m) : Operand → m Value
  | .expression e => e.render ask
  | .param p => ask.name p
  | .null => pure (.text "null")
  | .bool b => pure (.text (if b then "true" else "false"))
  | .int n => do return .text (← MonadExcept.ofExcept (intText n))
  | .text t => pure (.text (Json.quoted .unicode t))
  | .list items | .tuple items => do
    let rendered ← renderOperands ask items
    return .text (bracketed (← ask.joinable 0 rendered))
  | .other v => do return .text (← ask.printed v)
  | .endless => throw (.endless "")

def renderOperands (ask : Asking m) : List Operand → m (List Value)
  | [] => pure []
  | item :: rest => do
    let v ← item.render ask
    return v :: (← renderOperands ask rest)

end

/-- A text between the marks that tell a deploy tool to resolve it. -/
def deferred (rendered : Text) : Text := "\x7b\x7b " ++ rendered ++ " \x7d\x7d"

def Expression.deferredText (ask : Asking m) (e : Expression) : m Text := do
  return deferred (← ask.text (← e.render ask))

end

end FunctionManifest
