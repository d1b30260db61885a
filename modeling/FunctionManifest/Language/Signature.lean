import FunctionManifest.Assoc
import FunctionManifest.Value.Basic

/-!
# Signatures

What a callee accepts, and how the arguments of a call are bound to its parameters.
-/

namespace FunctionManifest

/-- The named parameters may be given by position. Of those the first `required` have no default. -/
structure Signature where
  callee : String
  named : List String
  required : Nat
  keywords : List String := []
  requiredKeywords : List String := []
  /-- Further positional arguments are accepted. -/
  variadic : Bool := false
  /-- Further keyword arguments are accepted. -/
  extensible : Bool := false
  /-- Every argument is refused as one too many. -/
  bare : Bool := false
  /-- Every argument given by keyword is refused. -/
  positionalOnly : Bool := false
  /-- An object is asked with exactly the parameters behind it, by position. -/
  exact : Bool := false
  deriving Inhabited, Repr

/-- The arguments of a call, bound. -/
structure Arguments where
  bound : Fields
  rest : List Value
  extra : Fields
  deriving Inhabited

namespace Arguments

def get? (arguments : Arguments) (name : String) : Option Value :=
  Assoc.get? arguments.bound (Text.ofString name)

/-- The argument, null if it is not given. -/
def get (arguments : Arguments) (name : String) : Value := (arguments.get? name).getD .null

end Arguments

namespace Signature

def isParameter (signature : Signature) (keyword : Text) : Bool :=
  (signature.named ++ signature.keywords ++ signature.requiredKeywords).any (keyword = ·)

/-- Binds one keyword argument. -/
def bindKeyword (signature : Signature) (arguments : Arguments) (keyword : Text) (v : Value) :
    Except Failure Arguments :=
  if signature.isParameter keyword then
    if Assoc.contains arguments.bound keyword then
      .error (.repeatedArgument signature.callee keyword)
    else .ok { arguments with bound := arguments.bound ++ [(keyword, v)] }
  else if signature.extensible then
    .ok { arguments with extra := Assoc.set arguments.extra keyword v }
  else .error (.unexpectedArgument signature.callee keyword)

def missing (arguments : Arguments) (names : List String) : List Text :=
  (names.map Text.ofString).filter fun name => !Assoc.contains arguments.bound name

/-- How many arguments are bound to parameters without a position. -/
def keywordOnly (signature : Signature) (arguments : Arguments) : Nat :=
  (signature.keywords ++ signature.requiredKeywords).countP fun name =>
    Assoc.contains arguments.bound (Text.ofString name)

/-- Binds positional arguments first, then those given by keyword, and refuses a call that has too
many arguments or lacks one. -/
def bind (signature : Signature) (positional : List Value) (keywords : Fields) :
    Except Failure Arguments := do
  if signature.bare && !(positional.isEmpty && keywords.isEmpty) then
    throw (.noArguments signature.callee)
  if (signature.positionalOnly || signature.exact) && !keywords.isEmpty then
    throw (.noKeywords signature.callee)
  if signature.exact && positional.length ≠ signature.named.length then
    throw (.otherCount signature.callee (signature.named.length - 1) (positional.length - 1))
  let start : Arguments :=
    { bound := (signature.named.map Text.ofString).zip positional
      rest := positional.drop signature.named.length
      extra := [] }
  let arguments ← keywords.foldlM (fun acc entry => signature.bindKeyword acc entry.1 entry.2) start
  let most := signature.named.length
  if !signature.variadic && most < positional.length then
    throw (.tooManyArguments signature.callee signature.required most positional.length
      (signature.keywordOnly arguments))
  match missing arguments (signature.named.take signature.required) with
  | [] => pure ()
  | names => throw (.missingArguments signature.callee names false)
  match missing arguments signature.requiredKeywords with
  | [] => pure ()
  | names => throw (.missingArguments signature.callee names true)
  return arguments

end Signature

end FunctionManifest
