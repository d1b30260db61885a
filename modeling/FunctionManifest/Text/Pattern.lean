import FunctionManifest.Text.Quoted
import FunctionManifest.Text.Separated

/-!
# Regular expressions as texts

An expression may begin with its flags in brackets. They are named where the expression is shown,
and a long expression is cut there.
-/

namespace FunctionManifest.Text.Pattern

inductive Flag where
  | ignoreCase
  | multiline
  | dotAll
  | verbose
  | ascii
  deriving DecidableEq, Inhabited, Repr

namespace Flag

def letter : Flag → Char
  | .ignoreCase => 'i'
  | .multiline => 'm'
  | .dotAll => 's'
  | .verbose => 'x'
  | .ascii => 'a'

def label : Flag → String
  | .ignoreCase => "re.IGNORECASE"
  | .multiline => "re.MULTILINE"
  | .dotAll => "re.DOTALL"
  | .verbose => "re.VERBOSE"
  | .ascii => "re.ASCII"

/-- In the order in which flags are listed. -/
def all : List Flag := [.ignoreCase, .multiline, .dotAll, .verbose, .ascii]

end Flag

/-- The letters of a group of flags. One of them says what holds anyway. -/
def flagLetters : Text := "imsxau"

/-- The flags of the groups that the expression begins with. Between them stand comments, and in a
verbose expression blanks. -/
def flagsFrom (fuel : Nat) (verbose : Bool) (text : Text) : Text :=
  match fuel, text with
  | fuel + 1, .char '(' :: .char '?' :: .char '#' :: rest =>
    flagsFrom fuel verbose ((rest.dropWhile (· ≠ .char ')')).drop 1)
  | fuel + 1, .char '(' :: .char '?' :: rest =>
    let letters := rest.takeWhile flagLetters.contains
    match rest.drop letters.length with
    | .char ')' :: after => letters ++ flagsFrom fuel (verbose || letters.contains 'x') after
    | _ => []
  | fuel + 1, .char '#' :: rest =>
    if verbose then flagsFrom fuel verbose (rest.dropWhile (· ≠ .char '\n')) else []
  | fuel + 1, c :: rest =>
    if verbose ∧ Text.isBlank c then flagsFrom fuel verbose rest else []
  | _, _ => []

def flags (source : Text) : List Flag :=
  let letters := flagsFrom (source.length + 1) false source
  Flag.all.filter fun flag => letters.contains flag.letter

/-- How many letters of a quoted expression are shown. -/
def shownLength : Nat := 200

def shown (source : Text) : Text :=
  let named : Text := match flags source with
    | [] => ""
    | flags => ", " ++ Text.join "|" (flags.map fun flag => Text.ofString flag.label)
  "re.compile(" ++ (Text.quoted source).take shownLength ++ named ++ ")"

end FunctionManifest.Text.Pattern
