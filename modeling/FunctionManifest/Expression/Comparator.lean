import FunctionManifest.Text.Letter

/-! # Comparators -/

namespace FunctionManifest

inductive Comparator where
  | equal
  | greater
  | greaterEqual
  | less
  | lessEqual
  deriving DecidableEq, Inhabited, Repr

namespace Comparator

def symbol : Comparator → String
  | .equal => "=="
  | .greater => ">"
  | .greaterEqual => ">="
  | .less => "<"
  | .lessEqual => "<="

def all : List Comparator := [.equal, .greater, .greaterEqual, .less, .lessEqual]

def ofSymbol? (symbol : Text) : Option Comparator := all.find? (symbol = ·.symbol)

end Comparator

end FunctionManifest
