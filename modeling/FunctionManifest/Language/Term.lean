import FunctionManifest.Language.Builtin
import FunctionManifest.Language.Constant

/-!
# Terms

The language in which function sources and scripts say what a value is.
-/

namespace FunctionManifest

inductive Term where
  | null
  | bool (b : Bool)
  | int (n : Int)
  | float (x : Binary64)
  | text (t : Text)
  | list (items : List Term)
  | tuple (items : List Term)
  | mapping (entries : List (Term × Term))
  | record (fields : List (Text × Term))
  | module (name : Text) (file : Option Text) (attributes : List (Text × Term))
  | regex (source : Text)
  | unknown (label : Text)
  | callable (label : Text) (named : Bool)
  | variable (name : Text)
  | constant (c : Constant)
  | attribute (target : Term) (name : Text)
  | method (target : Term) (name : Text) (positional : List Term) (keywords : List (Text × Term))
  | apply (callee : Builtin) (positional : List Term) (keywords : List (Text × Term))
  /-- A new function with a trigger attached. -/
  | triggered (trigger : TriggerName) (positional : List Term) (keywords : List (Text × Term))
      (function : Text)
  deriving Inhabited

end FunctionManifest
