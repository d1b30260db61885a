import FunctionManifest.Discovery.Walk
import Mathlib.Data.List.Lex

/-!
# Member paths

What a walk has to find, said without walking: the paths over members from a namespace to a
function. A path is simple if no group is on it twice, the namespace it starts from included.
-/

namespace FunctionManifest

/-- A step to a member: its place among the members, and its name. -/
structure Step where
  place : Nat
  name : Text
  deriving DecidableEq

/-- The steps into groups, and the last one to a function. -/
structure MemberPath where
  groups : List Step
  last : Step
  deriving DecidableEq

namespace MemberPath

def steps (path : MemberPath) : List Step := path.groups ++ [path.last]

def names (path : MemberPath) : List Text := path.steps.map Step.name

def places (path : MemberPath) : List Nat := path.steps.map Step.place

/-- The names joined by dashes, after what stands before every key. -/
def key (before : Text) (path : MemberPath) : Text := before ++ Text.join "-" path.names

/-- What stands before the name of the function in its key. -/
def groupText (before : Text) (path : MemberPath) : Text :=
  path.groups.foldl (fun text step => text ++ step.name ++ "-") before

/-- The name of the function has the letter that joins names. -/
def IsDashed (path : MemberPath) : Prop := Letter.char '-' ∈ path.last.name

instance (path : MemberPath) : Decidable path.IsDashed := inferInstanceAs (Decidable (_ ∈ _))

/-- The order in which members are met: the first place where two paths differ decides. -/
def Before (path other : MemberPath) : Prop := List.Lex (· < ·) path.places other.places

/-- The path with one more group before it. -/
def through (step : Step) (path : MemberPath) : MemberPath :=
  { path with groups := step :: path.groups }

@[simp] theorem last_through (step : Step) (path : MemberPath) :
    (path.through step).last = path.last := rfl

@[simp] theorem names_through (step : Step) (path : MemberPath) :
    (path.through step).names = step.name :: path.names := rfl

@[simp] theorem places_through (step : Step) (path : MemberPath) :
    (path.through step).places = step.place :: path.places := rfl

@[simp] theorem isDashed_through (step : Step) (path : MemberPath) :
    (path.through step).IsDashed ↔ path.IsDashed := Iff.rfl

@[simp] theorem groupText_through (before : Text) (step : Step) (path : MemberPath) :
    (path.through step).groupText before = path.groupText (before ++ step.name ++ "-") := rfl

theorem names_ne_nil (path : MemberPath) : path.names ≠ [] := by
  simp [names, steps]

@[simp] theorem key_through (before : Text) (step : Step) (path : MemberPath) :
    (path.through step).key before = path.key (before ++ step.name ++ "-") := by
  simp [key, Text.join, List.intercalate_cons_of_ne_nil path.names_ne_nil]

@[simp] theorem key_single (before : Text) (step : Step) :
    (⟨[], step⟩ : MemberPath).key before = before ++ step.name := by
  simp [key, names, steps, Text.join]

end MemberPath

namespace Heap

variable (heap : Heap) (project : Project) (root : Root)

/-- A path from a namespace to a function, with the addresses of the groups on its way. -/
inductive Leads : Value → MemberPath → List Nat → Value → CloudFunction → Prop
  | function {v : Value} {place : Nat} {name : Text} {member : Value} {f : CloudFunction} :
      (heap.members v)[place]? = some (.found name member) →
      heap.cell? member = some (.function f) →
      Leads v ⟨[], ⟨place, name⟩⟩ [] member f
  | group {v : Value} {place : Nat} {name : Text} {member : Value} {address : Nat}
      {path : MemberPath} {groups : List Nat} {function : Value} {f : CloudFunction} :
      (heap.members v)[place]? = some (.found name member) →
      heap.group? project root member = .ok (some address) →
      Leads member path groups function f →
      Leads v (path.through ⟨place, name⟩) (address :: groups) function f

variable {heap project root} in
theorem Leads.cell? {v function : Value} {path : MemberPath} {groups : List Nat}
    {f : CloudFunction} (h : heap.Leads project root v path groups function f) :
    heap.cell? function = some (.function f) := by
  induction h with
  | function _ hcell => exact hcell
  | group _ _ _ ih => exact ih

/-- A path on which no group is met twice, nor the namespace that it starts from. -/
def HasPath (v : Value) (path : MemberPath) (function : Value) (f : CloudFunction) : Prop :=
  ∃ groups, heap.Leads project root v path groups function f ∧
    ((Way.start [] v).ancestors ++ groups).Nodup

/-- What a walk looks into: the namespace, and the groups that a way without repetition leads to.
The addresses are those of the groups on the way, the last one first. -/
inductive Visits (ancestors : List Nat) (v : Value) : List Nat → Value → Prop
  | start : Visits ancestors v ancestors v
  | group {before : List Nat} {w : Value} {name : Text} {member : Value} {address : Nat} :
      Visits ancestors v before w →
      .found name member ∈ heap.members w →
      heap.group? project root member = .ok (some address) → address ∉ before →
      Visits ancestors v (address :: before) member

/-- What holds of a namespace and passes on to groups holds of whatever is visited. -/
theorem Visits.of_closed {heap : Heap} {project : Project} {root : Root}
    {ancestors before : List Nat} {v w : Value} {p : Value → Prop} (hv : p v)
    (hstep : ∀ u, p u → ∀ name member address, .found name member ∈ heap.members u →
      heap.group? project root member = .ok (some address) → p member)
    (h : heap.Visits project root ancestors v before w) : p w := by
  induction h with
  | start => exact hv
  | group _ hmem hgroup _ ih => exact hstep _ ih _ _ _ hmem hgroup

end Heap

end FunctionManifest
