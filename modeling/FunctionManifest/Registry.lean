/-!
# Param registries

A registry keeps declarations in order, one for each name: declaring a name again drops the earlier
declaration. Declarations go to the registry of the innermost scope.
-/

namespace FunctionManifest

structure Registry (α : Type) where
  entries : List α
  deriving Inhabited

namespace Registry

variable {α : Type} {m : Type → Type} [Monad m]

def empty : Registry α := ⟨[]⟩

/-- Entries are compared by name, each one kept with the new one. -/
def register (sameName : α → α → m Bool) (registry : Registry α) (entry : α) : m (Registry α) := do
  let others ← registry.entries.filterM fun other => do return !(← sameName other entry)
  return ⟨others ++ [entry]⟩

/-- The first entry with a name. -/
def find? (hasName : α → m Bool) (registry : Registry α) : m (Option α) :=
  registry.entries.findM? hasName

def contains (hasName : α → m Bool) (registry : Registry α) : m Bool :=
  registry.entries.anyM hasName

def names {β : Type} (name : α → m β) (registry : Registry α) : m (List β) :=
  registry.entries.mapM name

def size (registry : Registry α) : Nat := registry.entries.length

def clear (_ : Registry α) : Registry α := empty

end Registry

/-- What declarations go to outside every scope, and the entered scopes, innermost first. -/
structure Scopes (α : Type) where
  default : α
  entered : List α
  deriving Inhabited

namespace Scopes

variable {α : Type}

/-- What declarations go to. -/
def current (scopes : Scopes α) : α := scopes.entered.headD scopes.default

def enter (scopes : Scopes α) (target : α) : Scopes α :=
  { scopes with entered := target :: scopes.entered }

/-- Leaves the innermost scope. -/
def leave (scopes : Scopes α) : Scopes α := { scopes with entered := scopes.entered.drop 1 }

end Scopes

end FunctionManifest
