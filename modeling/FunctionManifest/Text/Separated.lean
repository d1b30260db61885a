import FunctionManifest.Text.Letter

/-!
# Texts with separators

Splitting at a separator keeps empty parts, so joining the parts with the separator gives the text
back.
-/

namespace FunctionManifest.Text

/-- The parts between the separators; always at least one. -/
def split (separator : Letter) : Text → List Text
  | [] => [[]]
  | c :: rest =>
    if c = separator then [] :: split separator rest
    else
      match split separator rest with
      | [] => [[c]]
      | part :: parts => (c :: part) :: parts

/-- Removes letters from both ends. -/
def trim (drops : Letter → Bool) (text : Text) : Text :=
  ((text.dropWhile drops).reverse.dropWhile drops).reverse

/-- Removes letters from the end. -/
def trimEnd (drops : Letter → Bool) (text : Text) : Text :=
  (text.reverse.dropWhile drops).reverse

def join (separator : Text) (parts : List Text) : Text := separator.intercalate parts

/-- Every occurrence of one letter replaced by another. -/
def replace (old new : Letter) (text : Text) : Text :=
  text.map fun c => if c = old then new else c

/-- The part stands somewhere in the text. -/
def hasPart (part : Text) : Text → Bool
  | [] => part.isEmpty
  | c :: rest => part.isPrefixOf (c :: rest) || hasPart part rest

end FunctionManifest.Text
