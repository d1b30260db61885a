import FunctionManifest.Json.Reader
import FunctionManifest.Language.Notation
import FunctionManifest.Source.Project

/-!
# The notation of sources

A source is written as a JSON list of its statements, each of them an object that says what it does.
What has no statements is written in another form: nothing for a directory, and bytes in hexadecimal
digits.
-/

namespace FunctionManifest

/-! ## Members of objects -/

def Value.member? (v : Value) (name : String) : Option Value :=
  match v with
  | .mapping entries => Assoc.get? entries (.text name)
  | _ => none

def Value.textMember? (v : Value) (name : String) : Option Text :=
  match v.member? name with
  | some (.text t) => some t
  | _ => none

def Value.textMember (v : Value) (name : String) : Except Failure Text :=
  orRefuse (v.textMember? name)

/-! ## Statements -/

/-- Pairs of names. -/
def namePairs (v : Value) : Except Failure (List (Text × Text)) :=
  match v with
  | .list items => items.mapM fun
    | .list [.text name, .text bound] => .ok (name, bound)
    | _ => .error .badSyntax
  | _ => .error .badSyntax

def Statement.ofData (v : Value) : Except Failure Statement := do
  match (← v.textMember "s").spelled with
  | "let" =>
    let name ← v.textMember "name"
    return .assign name (← Term.ofData (← orRefuse (v.member? "value")))
  | "del" => return .delete (← v.textMember "name")
  | "import" => return .importModule (← v.textMember "module") (v.textMember? "as")
  | "from" =>
    let path ← v.textMember "module"
    return .importFrom path (← namePairs (← orRefuse (v.member? "names")))
  | "raise" =>
    let kind ← v.textMember "kind"
    return .fail (.ofLabel kind) (← v.textMember "message")
  | "syntax" => return .snippet (← orRefuse (Snippet.ofLabel? (← v.textMember "snippet")))
  | _ => .error .badSyntax

def statementsOfData (v : Value) : Except Failure (List Statement) :=
  match v with
  | .list items => items.mapM Statement.ofData
  | _ => .error .badSyntax

/-! ## Files -/

/-- Two digits make a byte. -/
def hexBytes? : Text → Option (List Nat)
  | [] => some []
  | high :: low :: rest => do
    let high ← Json.hexValue? high
    let low ← Json.hexValue? low
    let rest ← hexBytes? rest
    return (high * 16 + low) :: rest
  | [_] => none

def Body.ofData (v : Value) : Except Failure Body :=
  match v.textMember? "hex" with
  | some digits => return .bytes (← orRefuse (hexBytes? digits))
  | none =>
    match v.member? "stmts" with
    | some listed =>
      let marked := match v.member? "bom" with
        | some (.bool marked) => marked
        | _ => false
      return .statements marked (← statementsOfData listed)
    | none => return .statements false (← statementsOfData v)

def FileEntry.ofData (v : Value) : Except Failure FileEntry :=
  match v with
  | .null => .ok .directory
  | v => return .file (← Body.ofData v)

/-- Writes what is at the path, seen from the project's directory. -/
def Project.writeAt (project : Project) (path : Text) (entry : FileEntry) : Project :=
  project.write (Location.resolved (pathParts path)) entry

end FunctionManifest
