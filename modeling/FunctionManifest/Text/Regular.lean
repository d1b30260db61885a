/-!
# Regular sets of texts

A text is matched character by character: what is left of the expression after one character is its
derivative. Smart constructors keep derivatives small.
-/

namespace FunctionManifest.Text

inductive Regular where
  | nothing
  | empty
  | one (accepts : Char → Bool)
  | both (first second : Regular)
  | either (first second : Regular)
  | many (inner : Regular)

namespace Regular

def isEmpty : Regular → Bool
  | .nothing | .one _ => false
  | .empty | .many _ => true
  | .both first second => first.isEmpty && second.isEmpty
  | .either first second => first.isEmpty || second.isEmpty

/-- The first followed by the second. -/
def andThen : Regular → Regular → Regular
  | .nothing, _ | _, .nothing => .nothing
  | .empty, second => second
  | first, second => .both first second

def orElse : Regular → Regular → Regular
  | .nothing, second => second
  | first, .nothing => first
  | first, second => .either first second

/-- What may follow once the character is taken. -/
def after (c : Char) : Regular → Regular
  | .nothing | .empty => .nothing
  | .one accepts => if accepts c then .empty else .nothing
  | .both first second =>
    let taken := (first.after c).andThen second
    if first.isEmpty then taken.orElse (second.after c) else taken
  | .either first second => (first.after c).orElse (second.after c)
  | .many inner => (inner.after c).andThen (.many inner)

def accepts (expression : Regular) (text : List Char) : Bool :=
  (text.foldl (fun left c => left.after c) expression).isEmpty

/-! ## Building -/

def char (c : Char) : Regular := .one (· == c)

def oneOf (chars : String) : Regular := .one chars.toList.contains

def range (low high : Char) : Regular := .one fun c => low ≤ c && c ≤ high

def word (text : String) : Regular :=
  text.toList.foldr (fun c rest => (char c).andThen rest) .empty

def sequence (parts : List Regular) : Regular := parts.foldr andThen .empty

def choice (parts : List Regular) : Regular := parts.foldr orElse .nothing

def words (texts : List String) : Regular := choice (texts.map word)

def optional (inner : Regular) : Regular := orElse .empty inner

def oneOrMore (inner : Regular) : Regular := inner.andThen (.many inner)

def times (count : Nat) (inner : Regular) : Regular := sequence (List.replicate count inner)

end Regular

end FunctionManifest.Text
