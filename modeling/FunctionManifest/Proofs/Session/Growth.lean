import FunctionManifest.Heap.Collection

/-!
# Growing heaps

A heap that only grew has every object that was there before, as it was.
-/

namespace FunctionManifest.Heap

/-- Every object is still there, unchanged. -/
def Extends (heap before : Heap) : Prop :=
  ∀ v cell, before.cell? v = some cell → heap.cell? v = some cell

theorem Extends.refl (heap : Heap) : heap.Extends heap := fun _ _ h => h

theorem Extends.trans {third second first : Heap} (h : third.Extends second)
    (h' : second.Extends first) : third.Extends first := fun v cell hc => h v cell (h' v cell hc)

theorem cell?_allocate_new (heap : Heap) (cell : Cell) :
    (heap.allocate cell).2.cell? (.ref heap.cells.size) = some cell := by
  simp [cell?, allocate]

theorem extends_allocate (heap : Heap) (cell : Cell) : (heap.allocate cell).2.Extends heap := by
  intro v c h
  cases v with
  | ref address =>
    obtain ⟨hlt, hget⟩ := Array.getElem?_eq_some_iff.mp h
    simp only [cell?, allocate, Array.getElem?_push]
    rw [if_neg (by omega)]
    exact h
  | _ => simp [cell?] at h

/-- Putting an object where it is already changes nothing. -/
theorem replace_same {heap : Heap} {address : Nat} {cell : Cell}
    (h : heap.cells[address]? = some cell) : heap.replace address cell = heap := by
  obtain ⟨hlt, hget⟩ := Array.getElem?_eq_some_iff.mp h
  have hcells : heap.cells.setIfInBounds address cell = heap.cells := by
    rw [Array.setIfInBounds, dif_pos hlt, ← hget]
    exact Array.set_getElem_self hlt
  simp only [replace, hcells]

/-- What could be gone through still yields the same items. -/
theorem Extends.items? {heap before : Heap} {v : Value} {items : List Value}
    (h : heap.Extends before) (hitems : before.items? v = some items) :
    heap.items? v = some items := by
  cases v with
  | ref address =>
    cases hcell : before.cell? (.ref address) with
    | none => simp [Heap.items?, content, hcell] at hitems
    | some cell =>
      have hnew := h _ _ hcell
      rw [← hitems]
      cases cell <;> simp [Heap.items?, content, hcell, hnew]
  | _ => exact hitems

/-- Objects of a kind can be told from all others. -/
@[reducible] def decidableKind {α : Type} (heap : Heap) (v : Value) {make : α → Cell}
    (kind? : Cell → Option α) (h : ∀ cell a, kind? cell = some a ↔ cell = make a) :
    Decidable (∃ a, heap.cell? v = some (make a)) :=
  decidable_of_iff (((heap.cell? v).bind kind?).isSome = true) <| by
    simp only [Option.isSome_iff_exists, Option.bind_eq_some_iff, h]
    simp

instance (heap : Heap) (v : Value) : Decidable (∃ e, heap.cell? v = some (.endpoint e)) :=
  heap.decidableKind v (fun | .endpoint e => some e | _ => none) fun cell e => by
    cases cell <;> simp

instance (heap : Heap) (v : Value) : Decidable (∃ choice, heap.cell? v = some (.choice choice)) :=
  heap.decidableKind v (fun | .choice choice => some choice | _ => none) fun cell choice => by
    cases cell <;> simp

end FunctionManifest.Heap
