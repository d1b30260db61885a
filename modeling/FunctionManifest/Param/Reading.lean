import FunctionManifest.Heap.Collection
import FunctionManifest.Heap.Shown
import FunctionManifest.Json.Reader
import FunctionManifest.Param.Declaration
import FunctionManifest.Text.Encoded

/-!
# Reading params

A param is read from the environment each time. A variable that is empty counts as unset; then the
default is read, and without a default the zero of the type. Numbers are read from the start of a
text and fall back to zero with a warning; a JSON document that cannot be read is a failure.
-/

namespace FunctionManifest

abbrev Environment := List (Text × Text)

/-- What reading gave, and the warnings on the way. -/
structure Reading where
  result : Except Failure Value
  warnings : List Text
  deriving Inhabited

namespace Reading

def ok (v : Value) : Reading := ⟨.ok v, []⟩

def failed (failure : Failure) : Reading := ⟨.error failure, []⟩

end Reading

/-! ## From a text -/

def complaint (name text : Text) (noun : String) : Text :=
  "Param " ++ Text.quoted name ++ ": " ++ Text.quoted text ++ " is not " ++ noun ++ ", using 0"

def readInt (name text : Text) : Reading :=
  match Decimal.leadingInt? text with
  | none => ⟨.ok (.int 0), [complaint name text "an integer"]⟩
  | some (negative, digits) =>
    if digitLimit < digits.length then .failed (.tooLongToRead digits.length)
    else .ok (.int (Decimal.signed negative (Decimal.ofDigits digits)))

def readFloat (name text : Text) : Reading :=
  match Decimal.leadingFloat? text with
  | none => ⟨.ok (.float (.zero false)), [complaint name text "a number"]⟩
  | some x => .ok (.float x)

/-- The texts that stand for true, in any casing. -/
def affirmations : List Text := ["true", "y", "yes", "1"]

def lowered : Letter → Letter
  | .char c => .char c.toLower
  | c => c

def readBoolean (text : Text) : Bool :=
  affirmations.contains ((Text.trim Text.isBlank text).map lowered)

/-- The items between commas. Blanks after a comma belong to it. -/
def readList (text : Text) : List Text :=
  match Text.split ',' text with
  | [] => []
  | first :: rest => first :: rest.map (·.dropWhile Text.isBlank)

/-- A JSON document, with the failure for one that cannot be read. -/
def readDocument (raw : Text) (refusal : Json.Fault → Failure) : Except Failure Value :=
  (Json.read raw).mapError (·.failure refusal)

/-! ## From the environment -/

namespace Environment

/-- The text of a variable that is set and not empty. -/
def text? (environment : Environment) (name : Text) : Option Text :=
  (Assoc.get? environment name).filter (· ≠ [])

/-- The text as an environment keeps it, if it can be kept as bytes. -/
def keep (text : Text) : Except Failure Text :=
  match Text.Encoded.refused? text with
  | some (position, codes) => .error (.unencodable position codes)
  | none => .ok (Text.Encoded.kept text)

/-- A variable is named by a text. -/
def variableName (heap : Heap) : Value → Except Failure Text
  | .text name => keep name
  | v => .error (.notVariableName (shortType (heap.type v)))

/-- The text of the variable that a value names. -/
def rawText? (environment : Environment) (heap : Heap) (name : Value) :
    Except Failure (Option Text) := do
  return environment.text? (← variableName heap name)

/-- The environment with a variable set. An equals sign ends a name. -/
def set (environment : Environment) (name text : Text) : Except Failure Environment := do
  let name ← keep name
  let text ← keep text
  if name.contains '\x00' || text.contains '\x00' then throw .nullByte
  if name.contains '=' then throw .badVariableName
  if name = [] then throw .noVariableName
  return Assoc.set environment name text

def unset (environment : Environment) (name : Text) : Except Failure Environment := do
  return Assoc.erase environment (← keep name)

end Environment

/-- The variable of the platform's document. -/
def platformVariable : Text := "FIREBASE_CONFIG"

/-- A key of the platform's document, unless it is absent or says nothing. -/
def platformValue? (heap : Heap) (environment : Environment) (key : Value) :
    Except Failure (Option Value) := do
  match environment.text? platformVariable with
  | none => return none
  | some raw =>
    match ← readDocument raw .unreadablePlatform with
    | .mapping entries => return (← heap.lookEntry entries key).filter heap.isTruthy
    | _ => return none

section

variable {m : Type → Type} [Monad m] [MonadExceptOf Failure m]

namespace Param

/-- The raw text, or else the default printed. -/
def text? (heap : Heap) (printed : Value → m Text) (environment : Environment) (param : Param) :
    m (Option Text) := do
  match ← MonadExcept.ofExcept (environment.rawText? heap param.name) with
  | some raw => return some raw
  | none =>
    match param.default with
    | .null => return none
    | default => return some (← printed default)

/-- Reads the text if there is one, and gives the zero otherwise. The reader is told the name. -/
def readText (heap : Heap) (printed : Value → m Text) (environment : Environment) (param : Param)
    (zero : Value) (read : Text → Text → Reading) : m Reading := do
  match ← param.text? heap printed environment with
  | none => return .ok zero
  | some text =>
    match param.name with
    | .text name => return read name text
    | _ => return read [] text

def readListParam (heap : Heap) (environment : Environment) (param : Param) :
    Except Failure Value := do
  match ← environment.rawText? heap param.name with
  | some raw => return .texts (readList raw)
  | none =>
    match param.default with
    | .null => return .list []
    | default => return .list (← heap.items default)

def readJson (heap : Heap) (environment : Environment) (param : Param) : Except Failure Value := do
  match ← environment.rawText? heap param.name with
  | none => return param.default
  | some raw => readDocument raw (.unreadableParam (← heap.shown param.name) (Text.quoted raw))

def read (heap : Heap) (printed : Value → m Text) (environment : Environment) (param : Param) :
    m Reading :=
  match param.kind with
  | .base => return .failed .noValue
  | .string => param.readText heap printed environment (.text []) fun _ text => .ok (.text text)
  | .int => param.readText heap printed environment (.int 0) readInt
  | .float => param.readText heap printed environment (.float (.zero false)) readFloat
  | .boolean =>
    param.readText heap printed environment (.bool false) fun _ text =>
      .ok (.bool (readBoolean text))
  | .list => return ⟨param.readListParam heap environment, []⟩
  | .json => return ⟨param.readJson heap environment, []⟩
  | .builtin => do
    match ← MonadExcept.ofExcept (platformValue? heap environment param.configKey) with
    | none => return .ok (.text [])
    | some v => return .ok (.text (← printed v))

/-- The default as a deploy tool reads it. A list is joined to one text. -/
def specDefault (heap : Heap) (param : Param) : Except Failure Value :=
  if param.kind = .list ∧ ¬param.default.isNull then
    if heap.isTruthy param.default then
      match heap.items? param.default with
      | some items => return .text (← heap.joined "," items)
      | none => .error .notJoinable
    else .ok (.text [])
  else .ok param.default

end Param

end

namespace Secret

/-- A text that no document can be read from is refused. -/
def read (heap : Heap) (environment : Environment) (secret : Secret) : Except Failure Value := do
  match ← environment.rawText? heap secret.name, secret.json with
  | none, false => return .text []
  | none, true => throw (.unsetSecret (← heap.shown secret.name))
  | some raw, false => return .text raw
  | some raw, true => readDocument raw (.unreadableSecret (← heap.shown secret.name))

end Secret

end FunctionManifest
