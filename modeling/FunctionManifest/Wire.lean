import FunctionManifest.Expression.Tree

/-!
# Wire form

What a deploy tool reads is plain: expressions and params become deferred texts, a reset becomes
null, patterns and regular expressions their source, and sequences lists. Everything else is kept,
and so is every key of a mapping.
-/

namespace FunctionManifest

/-- A value by what becomes of it on the wire. -/
inductive Setting where
  | expression (e : Expression)
  | param (p : Value)
  /-- Resets an option to the platform's default. -/
  | reset
  | pattern (template : Text)
  | regex (source : Text)
  | mapping (entries : List (Value × Setting))
  | list (items : List Setting)
  | tuple (items : List Setting)
  | kept (v : Value)
  /-- A collection that holds itself. -/
  | endless

instance : Inhabited Setting := ⟨.reset⟩

section

variable {m : Type → Type} [Monad m] [MonadExceptOf Failure m]

mutual

def Setting.wire (ask : Asking m) : Setting → m Value
  | .expression e => do return .text (← e.deferredText ask)
  | .param p => do return .text (← (Expression.param p).deferredText ask)
  | .reset => pure .null
  | .pattern template => pure (.text template)
  | .regex source => pure (.text source)
  | .mapping entries => do return .mapping (← wireEntries ask entries)
  | .list items | .tuple items => do return .list (← wireItems ask items)
  | .kept v => pure v
  | .endless => throw (.endless "")

def wireItems (ask : Asking m) : List Setting → m (List Value)
  | [] => pure []
  | item :: rest => do
    let v ← item.wire ask
    return v :: (← wireItems ask rest)

def wireEntries (ask : Asking m) : List (Value × Setting) → m Entries
  | [] => pure []
  | (key, item) :: rest => do
    let v ← item.wire ask
    return (key, v) :: (← wireEntries ask rest)

end

end

end FunctionManifest
