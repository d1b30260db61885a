import FunctionManifest.Value.Basic

/-!
# Prompts

How a deploy tool asks for a param that has no value yet: for a text, for one or several of fixed
choices, or for a resource of the project.
-/

namespace FunctionManifest

/-- A choice without a label has the null value for it. -/
structure Choice where
  value : Value
  label : Value
  deriving Inhabited

inductive Prompt where
  | text (sample pattern complaint : Value)
  | select (many : Bool) (choices : Value)
  | resource (type : Value)
  deriving Inhabited

def Choice.spec (choice : Choice) : Value :=
  .named (given "label" choice.label ++ field "value" choice.value)

namespace Prompt

def label : Prompt → String
  | .text .. => "TextInput"
  | .select many _ => if many then "MultiSelectInput" else "SelectInput"
  | .resource _ => "ResourceInput"

/-- A value on its own under each of the names, one in the other. -/
def nest (names : List String) (v : Value) : Value :=
  names.foldr (fun name inner => .named (field name inner)) v

/-- A text to be entered, as a deploy tool reads it. -/
def textSpec (sample pattern complaint : Value) : Value :=
  nest ["text"] (.named
    (given "example" sample ++ given "validationRegex" pattern ++
      given "validationErrorMessage" complaint))

def selectSpec (many : Bool) (choices : List Value) : Value :=
  nest [if many then "multiSelect" else "select", "options"] (.list choices)

def resourceSpec (type : Value) : Value := nest ["resource", "resource", "type"] type

/-- Picks one of the project's storage buckets. -/
def bucketPicker : Prompt := .resource (.text "storage.googleapis.com/Bucket")

end Prompt

/-- A choice for each value; or, from labels with their values, for each of these. -/
def choicesOf (labelled : Option Entries) (values : List Value) : List Choice :=
  match labelled with
  | some entries => entries.map fun entry => ⟨entry.2, entry.1⟩
  | none => values.map fun v => ⟨v, .null⟩

end FunctionManifest
