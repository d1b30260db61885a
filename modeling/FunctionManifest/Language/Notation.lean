import FunctionManifest.Decimal.Numeral
import FunctionManifest.Language.Term

/-!
# The notation of terms

Terms are written as JSON. Atoms and lists stand for themselves, and an object with one member whose
name starts with a dollar sign stands for everything else.
-/

namespace FunctionManifest

/-- A float as it is written. -/
def floatOfText? (text : Text) : Option Binary64 :=
  match text.spelled with
  | "nan" => some (.nan 0)
  | "inf" => some (.infinite false)
  | "-inf" => some (.infinite true)
  | _ => Decimal.leadingFloat? text

/-- The reading of something that is there, and a failure for something that is not. -/
def orRefuse {α : Type} (found : Option α) : Except Failure α :=
  match found with
  | some a => .ok a
  | none => .error .badSyntax

mutual

def Term.ofData : Value → Except Failure Term
  | .null => .ok .null
  | .bool b => .ok (.bool b)
  | .int n => .ok (.int n)
  | .text t => .ok (.text t)
  | .list items => do return .list (← termsOfData items)
  | .mapping [(.text form, v)] => formOfData form.spelled v
  | _ => .error .badSyntax

/-- What a form of a name stands for. -/
def formOfData (form : String) : Value → Except Failure Term
  | .text t =>
    match form with
    | "$float" => do return .float (← orRefuse (floatOfText? t))
    | "$regex" => .ok (.regex t)
    | "$opaque" => .ok (.unknown t)
    | "$func" => .ok (.callable t true)
    | "$nameless" => .ok (.callable t false)
    | "$ref" => .ok (.variable t)
    | "$const" => do return .constant (← orRefuse (Constant.ofLabel? t))
    | _ => .error .badSyntax
  | .list (.text name :: arguments) =>
    match form with
    | "$fn" => do
      let builtin ← orRefuse (Builtin.ofLabel? name)
      let (positional, keywords) ← argumentsOfData arguments
      return .apply builtin positional keywords
    | "$trigger" => triggeredOfData name arguments
    | "$get" => do return .attribute (.text name) (← nameOfData arguments)
    | "$call" => do
      let (method, positional, keywords) ← methodOfData arguments
      return .method (.text name) method positional keywords
    | form => sequenceOfData form (.text name :: arguments)
  | .list (target :: arguments) =>
    match form with
    | "$get" => do return .attribute (← Term.ofData target) (← nameOfData arguments)
    | "$call" => do
      let target ← Term.ofData target
      let (method, positional, keywords) ← methodOfData arguments
      return .method target method positional keywords
    | form => sequenceOfData form (target :: arguments)
  | .list [] => sequenceOfData form []
  | .mapping entries =>
    if form = "$module" then moduleOfData [] none [] entries else .error .badSyntax
  | _ => .error .badSyntax

def sequenceOfData (form : String) (items : List Value) : Except Failure Term :=
  match form with
  | "$tuple" => do return .tuple (← termsOfData items)
  | "$dict" => do return .mapping (← entriesOfData items)
  | "$ns" => do return .record (← fieldsOfData items)
  | _ => .error .badSyntax

def nameOfData : List Value → Except Failure Text
  | [.text name] => .ok name
  | _ => .error .badSyntax

def methodOfData : List Value → Except Failure (Text × List Term × List (Text × Term))
  | .text name :: arguments => do return (name, ← argumentsOfData arguments)
  | _ => .error .badSyntax

def triggeredOfData (name : Text) : List Value → Except Failure Term
  | [.list positional, .list keywords, .text function] => do
    let trigger ← orRefuse (TriggerName.ofLabel? name)
    return .triggered trigger (← termsOfData positional) (← fieldsOfData keywords) function
  | _ => .error .badSyntax

/-- Positional arguments and those given by keyword; either may be left out at the end. -/
def argumentsOfData : List Value → Except Failure (List Term × List (Text × Term))
  | [] => .ok ([], [])
  | [.list positional] => do return (← termsOfData positional, [])
  | [.list positional, .list keywords] => do
    return (← termsOfData positional, ← fieldsOfData keywords)
  | _ => .error .badSyntax

def moduleOfData (name : Text) (file : Option Text) (attributes : List (Text × Term)) :
    List (Value × Value) → Except Failure Term
  | [] => .ok (.module name file attributes)
  | (.text key, v) :: rest => do
    match key.spelled, v with
    | "name", .text name => moduleOfData name file attributes rest
    | "file", .text file => moduleOfData name (some file) attributes rest
    | "attrs", .list fields => do
      let attributes ← fieldsOfData fields
      moduleOfData name file attributes rest
    | _, _ => moduleOfData name file attributes rest
  | _ :: rest => moduleOfData name file attributes rest

def termsOfData : List Value → Except Failure (List Term)
  | [] => .ok []
  | v :: rest => do return (← Term.ofData v) :: (← termsOfData rest)

def entriesOfData : List Value → Except Failure (List (Term × Term))
  | [] => .ok []
  | .list [key, v] :: rest => do
    let key ← Term.ofData key
    let v ← Term.ofData v
    return (key, v) :: (← entriesOfData rest)
  | _ => .error .badSyntax

def fieldsOfData : List Value → Except Failure (List (Text × Term))
  | [] => .ok []
  | .list [.text name, v] :: rest => do return (name, ← Term.ofData v) :: (← fieldsOfData rest)
  | _ => .error .badSyntax

end

end FunctionManifest
