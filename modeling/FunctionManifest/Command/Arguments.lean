import FunctionManifest.Command.Flag
import FunctionManifest.Text.Property
import FunctionManifest.Text.Quoted
import FunctionManifest.Text.Separated

/-!
# Arguments

What a list of arguments asks for. An argument is read on its own first: as a flag, which may be
shortened as long as only one flag starts that way, or as an operand. Flags then take their values
from the arguments behind them. The first thing that is wrong decides the complaint, and a request
for help is answered as soon as it is met.
-/

namespace FunctionManifest.Command

/-- Where the arguments are wrong. -/
inductive Misuse where
  | ambiguous (text : Text) (names : List String)
  | unknownChoice (label : String) (value : Text) (choices : List String)
  | missingValue (flag : Flag)
  | unusedValue (flag : Flag) (value : Text)
  | unrecognized (texts : List Text)
  deriving DecidableEq, Inhabited, Repr

def commaSeparated (texts : List Text) : Text := Text.join ", " texts

def Misuse.message : Misuse → Text
  | .ambiguous text names =>
    "ambiguous option: " ++ text ++ " could match " ++ commaSeparated (names.map Text.ofString)
  | .unknownChoice label value choices =>
    let listed := commaSeparated (choices.map fun choice => Text.quoted (Text.ofString choice))
    "argument " ++ Text.ofString label ++ ": invalid choice: " ++ Text.quoted value ++
      " (choose from " ++ listed ++ ")"
  | .missingValue flag => "argument " ++ Text.ofString flag.label ++ ": expected one argument"
  | .unusedValue flag value =>
    "argument " ++ Text.ofString flag.label ++ ": ignored explicit argument " ++ Text.quoted value
  | .unrecognized texts => "unrecognized arguments: " ++ Text.join " " texts

/-! ## Single arguments -/

/-- What an argument has behind the name of a flag. -/
inductive Attachment where
  | nothing
  /-- A value behind an equals sign. -/
  | value (text : Text)
  /-- What follows a name of one letter directly. -/
  | letters (text : Text)
  deriving DecidableEq, Inhabited, Repr

inductive Word where
  | flag (flag : Flag) (attachment : Attachment)
  | unknownFlag (text : Text)
  /-- Everything behind two dashes is an operand. -/
  | separator
  | operand (text : Text)
  deriving DecidableEq, Inhabited, Repr

/-- The text before the first equals sign, and the text after it. -/
def splitValue (text : Text) : Text × Option Text :=
  match text.dropWhile (· ≠ .char '=') with
  | [] => (text, none)
  | _ :: value => (text.takeWhile (· ≠ .char '='), some value)

/-- A number below zero is an operand. A line may end behind it. -/
def isNegativeNumber (text : Text) : Bool :=
  match text with
  | .char '-' :: digits =>
    let digits := if digits.getLast? = some (.char '\n') then digits.dropLast else digits
    let whole := digits.takeWhile Text.isDigit
    match digits.dropWhile Text.isDigit with
    | [] => !whole.isEmpty
    | .char '.' :: places => !places.isEmpty && places.all Text.isDigit
    | _ => false
  | _ => false

/-- The flags that an argument can stand for, with their whole names. It may give the start of a
long name, or a name of one letter with more behind it. -/
def abbreviated (level : Level) (text : Text) : List (String × Word) :=
  match text with
  | .char '-' :: .char '-' :: _ =>
    let (start, value) := splitValue text
    let attachment := (value.map Attachment.value).getD .nothing
    (level.names.filter fun entry => start.isPrefixOf (Text.ofString entry.1)).map fun entry =>
      (entry.1, .flag entry.2 attachment)
  | .char '-' :: letter :: rest =>
    (level.names.filter fun entry => Text.ofString entry.1 = [.char '-', letter]).map fun entry =>
      (entry.1, .flag entry.2 (.letters rest))
  | _ => []

/-- Only an argument that starts with a dash and goes on can be a flag. -/
def readWord (level : Level) (text : Text) : Except Misuse Word :=
  let (start, value) := splitValue text
  match level.flag? text, level.flag? start, value with
  | some flag, _, _ => .ok (.flag flag .nothing)
  | none, some flag, some value => .ok (.flag flag (.value value))
  | none, _, _ =>
    if text.head? ≠ some (.char '-') ∨ text = [.char '-'] then .ok (.operand text)
    else
      match abbreviated level text with
      | [(_, word)] => .ok word
      | [] =>
        if isNegativeNumber text || text.contains ' ' then .ok (.operand text)
        else .ok (.unknownFlag text)
      | found => .error (.ambiguous text (found.map (·.1)))

def readWords (level : Level) : List Text → Except Misuse (List Word)
  | [] => .ok []
  | text :: rest =>
    if text = Text.ofString "--" then .ok (.separator :: rest.map .operand)
    else do
      let word ← readWord level text
      return word :: (← readWords level rest)

/-! ## Flags with their values -/

inductive Step where
  | flag (flag : Flag) (value : Text)
  | unknownFlag (text : Text)
  | separator
  | operand (text : Text)
  | misuse (misuse : Misuse)
  deriving DecidableEq, Inhabited, Repr

/-- A flag with letters behind its own, each of them a further flag. From the first letter that is
none, the rest is not recognized. -/
def letterSteps (level : Level) (flag : Flag) : Text → Except Misuse (List Step)
  | [] => .ok [.flag flag []]
  | .char '-' :: rest => .error (.unusedValue flag (.char '-' :: rest))
  | letter :: rest =>
    match level.flag? [.char '-', letter], rest with
    | none, _ => .ok [.flag flag [], .unknownFlag (.char '-' :: letter :: rest)]
    | some next, .char '=' :: value => .error (.unusedValue next value)
    | some next, rest => do return .flag flag [] :: (← letterSteps level next rest)

/-- A flag with something attached. Only flags with long names take values. -/
def attachedSteps (level : Level) (flag : Flag) : Attachment → Except Misuse (List Step)
  | .nothing => if flag.takesValue then .error (.missingValue flag) else .ok [.flag flag []]
  | .value text =>
    if flag.takesValue then .ok [.flag flag text] else .error (.unusedValue flag text)
  | .letters text => letterSteps level flag text

def orMisuse (steps : Except Misuse (List Step)) : List Step :=
  match steps with
  | .ok steps => steps
  | .error misuse => [.misuse misuse]

/-- A value that is not attached is the next argument, if that is an operand. -/
def steps (level : Level) : List Word → List Step
  | [] => []
  | .flag flag attachment :: rest =>
    match attachment, flag.takesValue, rest with
    | .nothing, true, .operand value :: rest => .flag flag value :: steps level rest
    | attachment, _, rest => orMisuse (attachedSteps level flag attachment) ++ steps level rest
  | .unknownFlag text :: rest => .unknownFlag text :: steps level rest
  | .separator :: rest => .separator :: steps level rest
  | .operand text :: rest => .operand text :: steps level rest

/-! ## Requests -/

/-- A manifest that is asked for. -/
structure Invocation where
  verbose : Bool
  source : Text
  format : OutputFormat
  config : Config
  deriving Inhabited

inductive Request where
  | help (level : Level)
  | misuse (level : Level) (misuse : Misuse)
  | manifest (invocation : Invocation)
  deriving Inhabited

/-- What the arguments of a level come to, unless they end early. -/
structure Progress where
  invocation : Invocation
  /-- Whether the source is given. -/
  sourced : Bool
  unrecognized : List Text
  deriving Inhabited

namespace Progress

def start : Progress := ⟨⟨false, ".", .json, .default⟩, false, []⟩

def refuse (progress : Progress) (text : Text) : Progress :=
  { progress with unrecognized := progress.unrecognized ++ [text] }

def change (progress : Progress) (change : Invocation → Invocation) : Progress :=
  { progress with invocation := change progress.invocation }

def configure (progress : Progress) (change : Config → Config) : Progress :=
  progress.change fun invocation => { invocation with config := change invocation.config }

def withSource (progress : Progress) (source : Text) : Progress :=
  { progress.change ({ · with source }) with sourced := true }

/-- What a flag does; it may end the reading. -/
def set (progress : Progress) (level : Level) (flag : Flag) (value : Text) :
    Except Request Progress :=
  match flag with
  | .help => .error (.help level)
  | .verbose => .ok (progress.change ({ · with verbose := true }))
  | .format =>
    match OutputFormat.ofLabel? value with
    | some format => .ok (progress.change ({ · with format }))
    | none =>
      let choices := OutputFormat.all.map OutputFormat.label
      .error (.misuse level (.unknownChoice flag.label value choices))
  | .entryFile => .ok (progress.configure ({ · with entryFile := .text value }))
  | .specVersion => .ok (progress.configure ({ · with specVersion := .text value }))
  | .noParams => .ok (progress.configure ({ · with includeParams := .bool false }))

/-- The first operand is the source. Two dashes before or behind it are dropped. -/
def follow (level : Level) (progress : Progress) : List Step → Except Request Progress
  | [] => .ok progress
  | .flag flag value :: rest => do follow level (← progress.set level flag value) rest
  | .misuse misuse :: _ => .error (.misuse level misuse)
  | .unknownFlag text :: rest => follow level (progress.refuse text) rest
  | .separator :: rest =>
    if progress.sourced then follow level (progress.refuse "--") rest
    else follow level progress rest
  | .operand text :: rest =>
    if progress.sourced then follow level (progress.refuse text) rest
    else
      match rest with
      | .separator :: rest => follow level (progress.withSource text) rest
      | rest => follow level (progress.withSource text) rest

end Progress

/-- Reads the arguments of a level. -/
def readLevel (level : Level) (progress : Progress) (arguments : List Text) :
    Except Request Progress :=
  match readWords level arguments with
  | .error misuse => .error (.misuse level misuse)
  | .ok words => progress.follow level (steps level words)

def isFlag : Word → Bool
  | .flag .. | .unknownFlag _ => true
  | .separator | .operand _ => false

/-- Flags of the program come first. All else belongs to the command. -/
def readArguments (arguments : List Text) : Except Request Invocation := do
  match readWords .program arguments with
  | .error misuse => throw (.misuse .program misuse)
  | .ok words =>
    let own := words.takeWhile isFlag
    let progress ← Progress.start.follow .program (steps .program own)
    let progress ← match arguments.drop own.length with
      | [] => pure progress
      | command :: rest =>
        if command = Text.ofString "--" ∧ rest = [] then pure (progress.refuse command)
        else if command = Text.ofString "manifest" then readLevel .manifest progress rest
        else throw (.misuse .program (.unknownChoice "command" command ["manifest"]))
    if !progress.unrecognized.isEmpty then
      throw (.misuse .program (.unrecognized progress.unrecognized))
    if own.length = arguments.length then throw (.help .program)
    return progress.invocation

/-- What the arguments ask for. -/
def Request.ofArguments (arguments : List Text) : Request :=
  match readArguments arguments with
  | .ok invocation => .manifest invocation
  | .error request => request

end FunctionManifest.Command
