import FunctionManifest.Json.Fault
import FunctionManifest.Text.Separated
import FunctionManifest.Text.Utf8

/-!
# Failures

Every way an operation can fail is a cause. The wording of all of them is in `Failure.message`, and
`Failure.kind` is the family a cause belongs to.
-/

namespace FunctionManifest

/-- The families of failures. A source may also raise one that is known by name only. -/
inductive FailureKind where
  | framework
  | manifest
  | exportName
  | paramValue
  | value
  | argument
  | attribute
  | key
  | name
  | frozenField
  | unimplemented
  | noFile
  | imports
  | noModule
  | grammar
  | encoding
  | unencodable
  | unwritable
  | system
  | recursion
  | named (label : Text)
  deriving DecidableEq, Inhabited, Repr

namespace FailureKind

def label : FailureKind → Text
  | .framework => "FuncstackError"
  | .manifest => "ManifestError"
  | .exportName => "InvalidExportNameError"
  | .paramValue => "ParamValueError"
  | .value => "ValueError"
  | .argument => "TypeError"
  | .attribute => "AttributeError"
  | .key => "KeyError"
  | .name => "NameError"
  | .frozenField => "FrozenInstanceError"
  | .unimplemented => "NotImplementedError"
  | .noFile => "FileNotFoundError"
  | .imports => "ImportError"
  | .noModule => "ModuleNotFoundError"
  | .grammar => "SyntaxError"
  | .encoding => "UnicodeDecodeError"
  | .unencodable => "UnicodeEncodeError"
  | .unwritable => "RepresenterError"
  | .system => "OSError"
  | .recursion => "RecursionError"
  | .named label => label

/-- The families with a constructor of their own. -/
def all : List FailureKind :=
  [.framework, .manifest, .exportName, .paramValue, .value, .argument, .attribute, .key, .name,
    .frozenField, .unimplemented, .noFile, .imports, .noModule, .grammar, .encoding, .unencodable,
    .unwritable, .system, .recursion]

def ofLabel (label : Text) : FailureKind :=
  (all.find? (·.label == label)).getD (.named label)

/-- The labels of the families a family belongs to, itself first. -/
def ancestry (kind : FailureKind) : List Text :=
  let own := kind.label
  match kind with
  | .framework => [own, "Exception"]
  | .manifest => [own, "FuncstackError", "Exception"]
  | .exportName => [own, "ManifestError", "FuncstackError", "Exception"]
  | .paramValue => [own, "FuncstackError", "ValueError", "Exception"]
  | .encoding | .unencodable => [own, "ValueError", "Exception"]
  | _ => [own, "Exception"]

/-- A failure of this family ends the program instead of being reported by it. -/
def endsProgram (kind : FailureKind) : Bool :=
  ["SystemExit", "KeyboardInterrupt", "GeneratorExit", "BaseException"].any (kind.label = ·)

end FailureKind

/-- The names a failure lists as possible are sorted. -/
def comparatorChoices : String := "<, <=, ==, >, >="

def triggerKindChoices : String := "callableTrigger, eventTrigger, httpsTrigger, scheduleTrigger"

def optionChoices : String :=
  "concurrency, cpu, environment_variables, ingress, max_instances, memory, min_instances, " ++
    "region, secrets, service_account, timeout_seconds, vpc"

inductive Failure where
  /-- A failure that only carries a text. -/
  | plain (kind : FailureKind) (text : Text)
  /-- The name and the group it stands in, as they are shown. -/
  | dashedName (shown : Text) (group : Option Text)
  /-- The name and the raw text as they are shown. -/
  | unreadableParam (name raw : Text) (fault : Json.Fault)
  | unsetSecret (name : Text)
  | unreadableSecret (name : Text) (fault : Json.Fault)
  | unreadablePlatform (fault : Json.Fault)
  | noSpec (name : Text)
  | noValue
  | tooLongToRead (digits : Nat)
  | tooLongToWrite
  | unknownComparator (shown : Text)
  | unknownTriggerKind (shown : Text)
  | unknownOption (shown : Text)
  | frozenField (name : Text)
  /-- An object that only has fields that are frozen takes no further name either. -/
  | frozenObject
  | frozenPattern
  | noAttribute (owner name : Text)
  | noTypeAttribute (owner name : Text)
  | noSetter (owner name : Text)
  | readOnly (owner name : Text)
  | notAttributeName (type : Text)
  /-- A module without a name says nothing about itself. -/
  | noMember (moduleName : Option Text) (name : Text)
  | noMemberYet (moduleName name : Text)
  | noExport (name : Text)
  | noKey (shown : Text)
  | unbound (name : Text)
  | notIterable (type : Text)
  | notJoinable
  | notSized (type : Text)
  | notSearchable (type : Text)
  | notPartOfText (type : Text)
  | notCallable (type : Text)
  | notMapping (callee type : Text)
  | notSubscriptable (type : Text)
  | notText (index : Nat) (type : Text)
  | notTextResult (type : Text)
  | notVariableName (type : Text)
  | notFileName (type : Text)
  | notMatchable (type : Text)
  | noOperation (sign left right : Text)
  | notConcatenated (type : Text)
  | notUnpackable (type : Text)
  | fewItems (count : Nat)
  | manyItems
  | notEntry (index : Nat)
  | notPair (index length : Nat)
  | unhashable (type : Text)
  | missingArguments (callee : Text) (names : List Text) (keywordOnly : Bool)
  /-- How many arguments were given by keyword to parameters that have no position. -/
  | tooManyArguments (callee : Text) (least most given keywordOnly : Nat)
  | unexpectedArgument (callee name : Text)
  | repeatedArgument (callee name : Text)
  | repeatedKeyword (callee name : Text)
  | noArguments (callee : Text)
  /-- Not as many arguments as the callee takes. -/
  | otherCount (callee : Text) (taken given : Nat)
  | noKeywords (callee : Text)
  | badKey (type : Text)
  | notJson (type : Text)
  | circular
  | notYaml
  | endless (doing : Text)
  | noSource (target entryFile : Text)
  | noImportSpec (file : Text)
  | unloadable (file : Text)
  | noModule (name : Text)
  | notPackage (name parent : Text)
  /-- The module has no such name, perhaps not yet. Without a file its place is not known. -/
  | noImportable (name moduleName : Text) (file : Option Text) (starting : Bool)
  | noParentPackage
  | beyondTopPackage
  | badSyntax
  | undecodable (fault : Text.Utf8.Fault)
  /-- The halves at a position that no encoding has bytes for. -/
  | unencodable (position : Nat) (codes : List Nat)
  | nullByte
  | badVariableName
  | noVariableName
  deriving Inhabited, Repr

namespace Failure

/-- The failure of a name with a dash. The groups it stands in are joined, and end with a dash. -/
def ofDashedName (name groups : Text) : Failure :=
  .dashedName (Text.quoted name)
    (if groups = [] then none else some (Text.quoted (Text.trimEnd (· = '-') groups)))

def kind : Failure → FailureKind
  | .plain kind _ => kind
  | .dashedName .. => .exportName
  | .unreadableParam .. | .unsetSecret _ | .unreadableSecret .. | .unreadablePlatform _ =>
    .paramValue
  | .noSpec _ => .framework
  | .noValue => .unimplemented
  | .tooLongToRead _ | .tooLongToWrite | .unknownComparator _ | .unknownTriggerKind _
  | .circular | .fewItems _ | .manyItems | .notPair .. | .nullByte | .badVariableName => .value
  | .frozenField _ => .frozenField
  | .frozenPattern | .noAttribute .. | .noTypeAttribute .. | .noSetter .. | .readOnly ..
  | .noMember .. | .noMemberYet .. | .noExport _ => .attribute
  | .noKey _ => .key
  | .unbound _ => .name
  | .unknownOption _ | .frozenObject | .notAttributeName _ | .notIterable _ | .notJoinable
  | .notSized _ | .notSearchable _ | .notPartOfText _ | .notCallable _ | .notMapping ..
  | .notSubscriptable _ | .notText .. | .notTextResult _ | .notVariableName _ | .notFileName _
  | .notMatchable _ | .noOperation .. | .notConcatenated _ | .notUnpackable _ | .notEntry _
  | .unhashable _ | .missingArguments .. | .tooManyArguments .. | .unexpectedArgument ..
  | .repeatedArgument .. | .repeatedKeyword .. | .noArguments _ | .otherCount .. | .noKeywords _
  | .badKey _ | .notJson _ => .argument
  | .notYaml => .unwritable
  | .endless _ => .recursion
  | .noSource .. => .noFile
  | .noImportSpec _ | .unloadable _ | .noImportable .. | .noParentPackage | .beyondTopPackage =>
    .imports
  | .noModule _ | .notPackage .. => .noModule
  | .badSyntax => .grammar
  | .undecodable _ => .encoding
  | .unencodable .. => .unencodable
  | .noVariableName => .system

/-- Between quotes and otherwise as it is. -/
def wrapped (text : Text) : Text := "'" ++ text ++ "'"

/-- Names in quotes, the last two joined by a word. -/
def enumerated : List Text → Text
  | [] => ""
  | [a] => wrapped a
  | [a, b] => wrapped a ++ " and " ++ wrapped b
  | names =>
    let wrappedNames := names.map wrapped
    Text.join ", " wrappedNames.dropLast ++ ", and " ++ wrappedNames.getLastD ""

def plural (count : Nat) (noun : String) : Text :=
  if count = 1 then noun else noun ++ "s"

/-- How many arguments a callee takes and was given. -/
def surplus (least most given keywordOnly : Nat) : Text :=
  let taken : Text := if least = most then Text.ofNat most
    else "from " ++ Text.ofNat least ++ " to " ++ Text.ofNat most
  let verb : Text := if given = 1 ∧ keywordOnly = 0 then "was" else "were"
  let more : Text := if keywordOnly = 0 then []
    else " positional " ++ plural given "argument" ++ " (and " ++ Text.ofNat keywordOnly ++
      " keyword-only " ++ plural keywordOnly "argument" ++ ")"
  let noun := if least = most then plural most "argument" else "arguments"
  "takes " ++ taken ++ " positional " ++ noun ++ " but " ++
    Text.ofNat given ++ more ++ " " ++ verb ++ " given"

/-- The letters that cannot be encoded: one of them by itself, or a range of positions. -/
def unencodableMessage (position : Nat) (codes : List Nat) : Text :=
  match codes with
  | [code] =>
    "'utf-8' codec can't encode character '" ++ Text.ofChars (Text.escapeCode code) ++
      "' in position " ++ Text.ofNat position ++ ": surrogates not allowed"
  | codes =>
    "'utf-8' codec can't encode characters in position " ++ Text.ofNat position ++ "-" ++
      Text.ofNat (position + codes.length - 1) ++ ": surrogates not allowed"

def message : Failure → Text
  | .plain kind text => if kind = .key then Text.quoted text else text
  | .dashedName shown group =>
    let place := match group with
      | some group => " (in group " ++ group ++ ")"
      | none => []
    "Function name " ++ shown ++ place ++ " contains a dash. " ++
      "Dashes are reserved for joining group names; rename the export."
  | .unreadableParam name raw fault =>
    "Unable to load param " ++ name ++ ": value " ++ raw ++ " could not be parsed as JSON: " ++
      fault.message
  | .unsetSecret name => "Secret " ++ name ++ " is not set"
  | .unreadableSecret name fault =>
    "Secret " ++ name ++ " could not be parsed as JSON: " ++ fault.message
  | .unreadablePlatform fault => "FIREBASE_CONFIG could not be parsed as JSON: " ++ fault.message
  | .noSpec name => "Built-in param " ++ name ++ " is resolved by the platform and has no spec"
  | .noValue => ""
  | .tooLongToRead digits =>
    "Exceeds the limit (4300 digits) for integer string conversion: value has " ++
      Text.ofNat digits ++ " digits; use sys.set_int_max_str_digits() to increase the limit"
  | .tooLongToWrite =>
    "Exceeds the limit (4300 digits) for integer string conversion; " ++
      "use sys.set_int_max_str_digits() to increase the limit"
  | .unknownComparator shown =>
    "Unknown comparator " ++ shown ++ ". Expected one of: " ++ comparatorChoices
  | .unknownTriggerKind shown =>
    "Unknown trigger kind " ++ shown ++ ". Expected one of: " ++ triggerKindChoices
  | .unknownOption shown =>
    "Unknown endpoint option " ++ shown ++ ". Expected one of: " ++ optionChoices
  | .frozenField name => "cannot assign to field " ++ Text.quoted name
  | .frozenObject => "super(type, obj): obj must be an instance or subtype of type"
  | .frozenPattern => "PathPattern is immutable"
  | .noAttribute owner name => wrapped owner ++ " object has no attribute " ++ wrapped name
  | .noTypeAttribute owner name =>
    "type object " ++ wrapped owner ++ " has no attribute " ++ wrapped name
  | .noSetter owner name =>
    "property " ++ Text.quoted name ++ " of " ++ wrapped owner ++ " object has no setter"
  | .readOnly owner name =>
    wrapped owner ++ " object attribute " ++ wrapped name ++ " is read-only"
  | .notAttributeName type => "attribute name must be string, not " ++ wrapped type
  | .noMember none name => "module has no attribute " ++ wrapped name
  | .noMember (some moduleName) name =>
    "module " ++ wrapped moduleName ++ " has no attribute " ++ wrapped name
  | .noMemberYet moduleName name =>
    "partially initialized module " ++ wrapped moduleName ++ " has no attribute " ++
      wrapped name ++ " (most likely due to a circular import)"
  | .noExport name => "module 'funcstack' has no attribute " ++ Text.quoted name
  | .noKey shown => shown
  | .unbound name => "name " ++ Text.quoted name ++ " is not defined"
  | .notIterable type => wrapped type ++ " object is not iterable"
  | .notJoinable => "can only join an iterable"
  | .notSized type => "object of type " ++ wrapped type ++ " has no len()"
  | .notSearchable type => "argument of type " ++ wrapped type ++ " is not iterable"
  | .notPartOfText type => "'in <string>' requires string as left operand, not " ++ type
  | .notCallable type => wrapped type ++ " object is not callable"
  | .notMapping callee type => callee ++ " argument after ** must be a mapping, not " ++ type
  | .notSubscriptable type => wrapped type ++ " object is not subscriptable"
  | .notText index type =>
    "sequence item " ++ Text.ofNat index ++ ": expected str instance, " ++ type ++ " found"
  | .notTextResult type => "__str__ returned non-string (type " ++ type ++ ")"
  | .notVariableName type => "str expected, not " ++ type
  | .notFileName type => "expected str, bytes or os.PathLike object, not " ++ type
  | .notMatchable type => "expected string or bytes-like object, got " ++ wrapped type
  | .noOperation sign left right =>
    "unsupported operand type(s) for " ++ sign ++ ": " ++ wrapped left ++ " and " ++ wrapped right
  | .notConcatenated type =>
    "can only concatenate " ++ type ++ " (not \"str\") to " ++ type
  | .notUnpackable type => "cannot unpack non-iterable " ++ type ++ " object"
  | .fewItems count => "not enough values to unpack (expected 2, got " ++ Text.ofNat count ++ ")"
  | .manyItems => "too many values to unpack (expected 2)"
  | .notEntry index =>
    "cannot convert dictionary update sequence element #" ++ Text.ofNat index ++
      " to a sequence"
  | .notPair index length =>
    "dictionary update sequence element #" ++ Text.ofNat index ++ " has length " ++
      Text.ofNat length ++ "; 2 is required"
  | .unhashable type => "unhashable type: " ++ wrapped type
  | .missingArguments callee names keywordOnly =>
    callee ++ "() missing " ++ Text.ofNat names.length ++ " required " ++
      (if keywordOnly then "keyword-only" else "positional") ++ " " ++
      plural names.length "argument" ++ ": " ++ enumerated names
  | .tooManyArguments callee least most given keywordOnly =>
    callee ++ "() " ++ surplus least most given keywordOnly
  | .unexpectedArgument callee name =>
    callee ++ "() got an unexpected keyword argument " ++ wrapped name
  | .repeatedArgument callee name =>
    callee ++ "() got multiple values for argument " ++ wrapped name
  | .repeatedKeyword callee name =>
    callee ++ "() got multiple values for keyword argument " ++ wrapped name
  | .noArguments callee => callee ++ "() takes no arguments"
  | .otherCount callee taken given =>
    callee ++ "() takes " ++ (if taken = 0 then "no arguments" else "exactly one argument") ++
      " (" ++ Text.ofNat given ++ " given)"
  | .noKeywords callee => callee ++ "() takes no keyword arguments"
  | .badKey type => "keys must be str, int, float, bool or None, not " ++ type
  | .notJson type => "Object of type " ++ type ++ " is not JSON serializable"
  | .circular => "Circular reference detected"
  | .notYaml => "cannot represent an object"
  | .endless doing => "maximum recursion depth exceeded" ++ doing
  | .noSource target entryFile =>
    "No function source found at " ++ target ++ " (expected a .py file, a package, or " ++
      entryFile ++ ")"
  | .noImportSpec file => "Cannot create an import spec for " ++ file
  | .unloadable file => file ++ ": file too short"
  | .noModule name => "No module named " ++ Text.quoted name
  | .notPackage name parent =>
    "No module named " ++ Text.quoted name ++ "; " ++ Text.quoted parent ++ " is not a package"
  | .noImportable name moduleName none _ =>
    "cannot import name " ++ Text.quoted name ++ " from " ++ Text.quoted moduleName ++
      " (unknown location)"
  | .noImportable name moduleName (some file) false =>
    "cannot import name " ++ Text.quoted name ++ " from " ++ Text.quoted moduleName ++ " (" ++
      file ++ ")"
  | .noImportable name moduleName (some file) true =>
    "cannot import name " ++ Text.quoted name ++ " from partially initialized module " ++
      Text.quoted moduleName ++ " (most likely due to a circular import) (" ++ file ++ ")"
  | .noParentPackage => "attempted relative import with no known parent package"
  | .beyondTopPackage => "attempted relative import beyond top-level package"
  | .badSyntax => "invalid syntax"
  | .undecodable fault => fault.message
  | .unencodable position codes => unencodableMessage position codes
  | .nullByte => "embedded null byte"
  | .badVariableName => "illegal environment variable name"
  | .noVariableName => "[Errno 22] Invalid argument"

end Failure

end FunctionManifest
