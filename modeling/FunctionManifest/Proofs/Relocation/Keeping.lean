import FunctionManifest.Proofs.Relocation.Tree

/-!
# Keeping objects

Both heaps keep the next object at its new address.
-/

namespace FunctionManifest.Heap

variable {ρ : Relocation} {heap heap' : Heap}

/-! ## Keeping -/

namespace Moved

variable (h : Heap.Moved ρ heap heap')

include h

theorem scopes (scopes scopes' : Scopes Value) :
    Heap.Moved ρ { heap with scopes } { heap' with scopes := scopes' } where
  cells := h.cells
  size := h.size
  undefined := h.undefined
  rest := h.rest

theorem eq_size_iff (a : Nat) : ρ.address a = heap'.cells.size ↔ a = heap.cells.size := by
  have hsize : heap'.cells.size = ρ.address heap.cells.size := (h.size 0).symm
  rw [hsize, ρ.address_injective.eq_iff]

theorem allocated (cell : Cell) :
    (heap'.allocate (moved ρ cell)).1 = moved ρ (heap.allocate cell).1 :=
  congrArg Value.ref (h.size 0).symm

theorem allocate (cell : Cell) :
    Heap.Moved ρ (heap.allocate cell).2 (heap'.allocate (moved ρ cell)).2 where
  cells a := by
    simp only [Heap.allocate, Array.getElem?_push, h.eq_size_iff]
    split
    · rfl
    · exact h.cells a
  size n := by
    have hnext := h.size (n + 1)
    simpa only [Heap.allocate, Array.size_push, Nat.add_assoc, Nat.add_comm 1 n] using hnext
  undefined := h.undefined
  rest b hb := by
    simp only [Heap.allocate, Array.getElem?_push]
    rw [if_neg fun hsize => hb _ ((h.size 0).trans hsize.symm)]
    exact h.rest b hb

theorem lt_size_iff (a : Nat) : ρ.address a < heap'.cells.size ↔ a < heap.cells.size := by
  have hcell := h.cells a
  rw [← not_iff_not, Nat.not_lt, Nat.not_lt, ← Array.getElem?_eq_none_iff,
    ← Array.getElem?_eq_none_iff, hcell]
  cases heap.cells[a]? <;> simp

theorem replace (a : Nat) (cell : Cell) :
    Heap.Moved ρ (heap.replace a cell) (heap'.replace (ρ.address a) (moved ρ cell)) where
  cells b := by
    simp only [Heap.replace, Array.getElem?_setIfInBounds, ρ.address_injective.eq_iff]
    split
    · subst b
      simp only [h.lt_size_iff]
      split <;> rfl
    · exact h.cells b
  size n := by simpa only [Heap.replace, Array.size_setIfInBounds] using h.size n
  undefined := h.undefined
  rest b hb := by
    simp only [Heap.replace, Array.getElem?_setIfInBounds]
    rw [if_neg (hb a)]
    exact h.rest b hb

theorem newUndefined :
    heap'.newUndefined.1 = moved ρ heap.newUndefined.1 ∧
      Heap.Moved ρ heap.newUndefined.2 heap'.newUndefined.2 := by
  refine ⟨?_, h.cells, h.size, fun n => ?_, h.rest⟩
  · exact congrArg (fun identity => Value.float (.nan identity)) (h.undefined 0).symm
  · have hnext := h.undefined (n + 1)
    simp only [Heap.newUndefined]
    rw [show heap.undefined + 1 + n + 1 = heap.undefined + (n + 1) + 1 by omega, hnext]
    omega

end Moved

mutual

theorem moved_intern (heap heap' : Heap) (h : Heap.Moved ρ heap heap') : (v : Value) →
    (heap'.intern (moved ρ v)).1 = moved ρ (heap.intern v).1 ∧
      Heap.Moved ρ (heap.intern v).2 (heap'.intern (moved ρ v)).2
  | .list items => by
    have hitems := moved_internItems heap heap' h items
    rw [moved_valueList]
    simp only [intern, hitems.1]
    exact ⟨hitems.2.allocated (.list _), hitems.2.allocate (.list _)⟩
  | .tuple [] => ⟨moved_emptyTuple.symm, h⟩
  | .tuple (v :: items) => by
    have hitems := moved_internItems heap heap' h (v :: items)
    rw [moved_valueTuple]
    rw [moved_cons] at hitems ⊢
    simp only [intern, hitems.1]
    exact ⟨hitems.2.allocated (.tuple _), hitems.2.allocate (.tuple _)⟩
  | .mapping entries => by
    have hentries := moved_internEntries heap heap' h entries
    rw [moved_valueMapping]
    simp only [intern, hentries.1]
    exact ⟨hentries.2.allocated (.mapping _), hentries.2.allocate (.mapping _)⟩
  | .null | .bool _ | .int _ | .float _ | .text _ | .ref _ => ⟨rfl, h⟩

theorem moved_internItems (heap heap' : Heap) (h : Heap.Moved ρ heap heap') : (items : List Value) →
    (heap'.internItems (moved ρ items)).1 = moved ρ (heap.internItems items).1 ∧
      Heap.Moved ρ (heap.internItems items).2 (heap'.internItems (moved ρ items)).2
  | [] => ⟨rfl, h⟩
  | v :: rest => by
    have hv := moved_intern heap heap' h v
    have hrest := moved_internItems _ _ hv.2 rest
    simp only [moved_cons, internItems, hv.1]
    exact ⟨by rw [hrest.1], hrest.2⟩

theorem moved_internEntries (heap heap' : Heap) (h : Heap.Moved ρ heap heap') :
    (entries : Entries) →
    (heap'.internEntries (moved ρ entries)).1 = moved ρ (heap.internEntries entries).1 ∧
      Heap.Moved ρ (heap.internEntries entries).2 (heap'.internEntries (moved ρ entries)).2
  | [] => ⟨rfl, h⟩
  | (k, v) :: rest => by
    have hk := moved_intern heap heap' h k
    have hv := moved_intern _ _ hk.2 v
    have hrest := moved_internEntries _ _ hv.2 rest
    simp only [moved_cons, moved_pair, internEntries, hk.1, hv.1]
    exact ⟨by rw [hrest.1], hrest.2⟩

end

end FunctionManifest.Heap
