import FunctionManifest.Heap.Collection
import FunctionManifest.Heap.Shown

/-!
# Searching

What is in a collection, and what stands under a name in a registry. Entries of a registry are told
apart by their names only, whatever they are.
-/

namespace FunctionManifest

/-- The name of a param or a secret, if it is a text. -/
def Cell.declaredName? : Cell → Option Text
  | .param p => p.name.text?
  | .secret s => s.name.text?
  | _ => none

namespace Heap

def nameOf (heap : Heap) (v : Value) : Except Failure Value := heap.memberName heap.shown v

/-- The name that a value has as a param or a secret. -/
def declaredName? (heap : Heap) (v : Value) : Option Text :=
  (heap.cell? v).bind Cell.declaredName?

/-- Two entries of a registry have one name. -/
def sameName (heap : Heap) (v w : Value) : Except Failure Bool := do
  heap.same (← heap.nameOf v) (← heap.nameOf w)

def hasName (heap : Heap) (name v : Value) : Except Failure Bool := do
  heap.same (← heap.nameOf v) name

/-- The item is one of the items. -/
def hasItem (heap : Heap) (item : Value) : List Value → Except Failure Bool
  | [] => .ok false
  | v :: rest => do if ← heap.sameInside v item then return true else heap.hasItem item rest

/-- The item is in the collection: among its items or keys, a part of a text, or a name in a
registry. -/
def contains (heap : Heap) (collection item : Value) : Except Failure Bool :=
  match heap.content collection, heap.cell? collection with
  | .list items, _ | .tuple items, _ => heap.hasItem item items
  | .mapping entries, _ => do return (← heap.lookEntry entries item).isSome
  | .text t, _ =>
    match item with
    | .text part => .ok (Text.hasPart part t)
    | v => .error (.notPartOfText (heap.type v))
  | _, some (.registry r) => r.contains (heap.hasName item)
  | v, _ => .error (.notSearchable (heap.type v))

/-! ## Required APIs -/

/-- An attribute that is part of an object. -/
def part (heap : Heap) (v : Value) (name : String) : Except Failure Value :=
  match heap.stored? v name with
  | some part => .ok part
  | none => .error (heap.missing v name)

/-- The value under a key that must be there. -/
def member (heap : Heap) (entries : Entries) (key : String) : Except Failure Value := do
  match ← heap.lookEntry entries (.text key) with
  | some v => return v
  | none => throw (.noKey (Text.quoted key))

/-- A requirement, which may also be given as a mapping. Both parts must be able to be keys. -/
def requirement (heap : Heap) (v : Value) : Except Failure RequiredApi := do
  match heap.entries? v with
  | some entries =>
    let api ← heap.member entries "api"
    let reason ← heap.member entries "reason"
    heap.checkKey api
    heap.checkKey reason
    return ⟨api, reason⟩
  | none =>
    let api ← heap.part v "api"
    heap.checkKey api
    let reason ← heap.part v "reason"
    heap.checkKey reason
    return ⟨api, reason⟩

/-- The requirements among the items, those for one API folded into one. -/
def mergedApis (heap : Heap) (items : List Value) : Except Failure (List RequiredApi) := do
  RequiredApi.merge heap.sameKey (heap.joined " ") (← items.mapM heap.requirement)

end Heap

end FunctionManifest
