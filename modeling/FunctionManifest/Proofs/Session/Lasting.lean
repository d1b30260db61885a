import FunctionManifest.Proofs.Session.Making
import FunctionManifest.Proofs.Session.Within

/-!
# What lasts

Tuples and compiled templates cannot be changed. Whatever is called, they stay as they are.
-/

namespace FunctionManifest

/-- Whatever calls there are, from the first session they can lead to the second. -/
def Session.LeadsTo (s u : Session) : Prop :=
  ∀ R : Session → Session → Prop, SettingFrame R → R s u

instance : SettingFrame Session.LeadsTo where
  refl s R _ := refl_of R s
  trans _ _ _ h h' R hR := trans_of R (h R hR) (h' R hR)
  allocates s cell h _ _ := Frame.allocates s cell h
  counts s _ _ := Frame.counts s
  logs s entry _ _ := Frame.logs s entry
  refills s address items items' h _ _ := Frame.refills s address items items' h
  remaps s address entries entries' h _ _ := Frame.remaps s address entries entries' h
  declares s address r r' v h hregister _ _ := Frame.declares s address r r' v h hregister
  clears s address r h _ _ := Frame.clears s address r h
  sets s address cell cell' name v hcell hwith _ _ :=
    SettingFrame.sets s address cell cell' name v hcell hwith

def Cell.isLasting : Cell → Bool
  | .tuple _ | .pattern .. | .segment .. => true
  | _ => false

theorem Cell.not_isLasting_of_with {heap : Heap} {cell cell' : Cell} {name : Text} {v : Value}
    (h : cell.with heap name v = .ok cell') : cell.isLasting = false := by
  cases cell with
  | tuple | pattern | segment => cases h
  | _ => rfl

namespace Heap

variable {heap later before : Heap}

/-- Every object that cannot be changed is still there, as it was. -/
def Retains (heap before : Heap) : Prop :=
  ∀ v cell, cell.isLasting = true → before.cell? v = some cell → heap.cell? v = some cell

theorem Retains.refl (heap : Heap) : heap.Retains heap := fun _ _ _ h => h

theorem Retains.trans (h : later.Retains heap) (h' : heap.Retains before) : later.Retains before :=
  fun v cell hlasting hcell => h v cell hlasting (h' v cell hlasting hcell)

theorem Extends.retains (h : heap.Extends before) : heap.Retains before :=
  fun v cell _ hcell => h v cell hcell

theorem retains_replace {address : Nat} {cell : Cell} (hcell : heap.cells[address]? = some cell)
    (hlasting : cell.isLasting = false) (new : Cell) : (heap.replace address new).Retains heap := by
  intro v other hother hfound
  cases v with
  | ref a =>
    change heap.cells[a]? = some other at hfound
    change (heap.cells.setIfInBounds address new)[a]? = some other
    have hne : address ≠ a := by
      rintro rfl
      rw [hcell, Option.some.injEq] at hfound
      rw [← hfound, hlasting] at hother
      cases hother
    rwa [Array.getElem?_setIfInBounds_ne hne]
  | _ => cases hfound

end Heap

instance : SettingFrame fun s u => u.heap.Retains s.heap where
  refl s := .refl s.heap
  trans _ _ _ h h' := h'.trans h
  allocates s cell _ := (Heap.extends_allocate s.heap cell).retains
  counts s := .refl s.heap
  logs s _ := .refl s.heap
  refills _ _ _ items' h := Heap.retains_replace h rfl (.list items')
  remaps _ _ _ entries' h := Heap.retains_replace h rfl (.mapping entries')
  declares _ _ _ r' _ h _ := Heap.retains_replace h rfl (.registry r')
  clears _ _ r h := Heap.retains_replace h rfl (.registry r.clear)
  sets _ _ _ cell' _ _ hcell hwith :=
    Heap.retains_replace hcell (Cell.not_isLasting_of_with hwith) cell'

theorem Session.LeadsTo.retains {s u : Session} (h : s.LeadsTo u) :
    u.heap.Retains s.heap :=
  h (fun s u => u.heap.Retains s.heap) inferInstance

end FunctionManifest
