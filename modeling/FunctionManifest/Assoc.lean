/-!
# Insertion-ordered dictionaries

A dictionary is the list of its entries. Setting a key that is there keeps its place and changes
its value; a new key goes to the end. Which keys are the same is a relation that is given, or else
equality.
-/

namespace FunctionManifest.Assoc

variable {α β : Type}

/-! ## With a relation -/

def lookBy (same : α → α → Bool) (entries : List (α × β)) (key : α) : Option β :=
  (entries.find? fun entry => same entry.1 key).map (·.2)

def putBy (same : α → α → Bool) : List (α × β) → α → β → List (α × β)
  | [], key, value => [(key, value)]
  | (k, v) :: rest, key, value =>
    if same k key then (k, value) :: rest else (k, v) :: putBy same rest key value

/-! ## With equality -/

variable [BEq α]

def get? (entries : List (α × β)) (key : α) : Option β := lookBy (· == ·) entries key

def contains (entries : List (α × β)) (key : α) : Bool :=
  entries.any fun entry => entry.1 == key

def set (entries : List (α × β)) (key : α) (value : β) : List (α × β) :=
  putBy (· == ·) entries key value

def erase (entries : List (α × β)) (key : α) : List (α × β) :=
  entries.filter fun entry => !(entry.1 == key)

/-- Sets one entry after the other. -/
def setAll (entries news : List (α × β)) : List (α × β) :=
  news.foldl (fun acc entry => set acc entry.1 entry.2) entries

def ofList (entries : List (α × β)) : List (α × β) := setAll [] entries

end FunctionManifest.Assoc
