import FunctionManifest.Proofs.Session.Making
import FunctionManifest.Proofs.Session.Within

/-!
# What calls without arguments leave

A call without arguments adds objects, and at most it empties what is there. So what a value leads
to stays the same, or there is less of it.
-/

namespace FunctionManifest

/-- Whatever calls without arguments there are, from the first session they can lead to the second. -/
def Session.Reaches (s u : Session) : Prop :=
  ∀ R : Session → Session → Prop, QuietFrame R → R s u

instance : QuietFrame Session.Reaches where
  refl s R _ := refl_of R s
  trans _ _ _ h h' R hR := trans_of R (h R hR) (h' R hR)
  allocates s cell h _ _ := QuietFrame.allocates s cell h
  counts s _ _ := QuietFrame.counts s
  logs s entry _ _ := QuietFrame.logs s entry
  empties s address items h _ _ := QuietFrame.empties s address items h
  unmaps s address entries h _ _ := QuietFrame.unmaps s address entries h
  clears s address r h _ _ := QuietFrame.clears s address r h

/-- What can be left of an object. -/
inductive Cell.Leaves : Cell → Cell → Prop
  | same (cell : Cell) : Leaves cell cell
  | emptied (items : List Value) : Leaves (.list items) (.list [])
  | unmapped (entries : Entries) : Leaves (.mapping entries) (.mapping [])
  | cleared (r r' : Registry Value) : Leaves (.registry r) (.registry r')

theorem Cell.Leaves.trans {first second third : Cell} (h : first.Leaves second)
    (h' : second.Leaves third) : first.Leaves third := by
  cases h with
  | same => exact h'
  | emptied items => cases h' <;> exact .emptied items
  | unmapped entries => cases h' <;> exact .unmapped entries
  | cleared r => cases h' <;> exact .cleared r _

namespace Heap

variable {heap later before : Heap}

/-- Every object is still there, or what is left of it. -/
def Keeps (heap before : Heap) : Prop :=
  ∀ v cell, before.cell? v = some cell → ∃ left, heap.cell? v = some left ∧ cell.Leaves left

theorem Extends.keeps (h : heap.Extends before) : heap.Keeps before := fun v cell hcell =>
  ⟨cell, h v cell hcell, .same cell⟩

theorem Keeps.refl (heap : Heap) : heap.Keeps heap := (Extends.refl heap).keeps

theorem Keeps.trans (h : later.Keeps heap) (h' : heap.Keeps before) : later.Keeps before := by
  intro v cell hcell
  obtain ⟨left, hleft, hleaves⟩ := h' v cell hcell
  obtain ⟨left', hleft', hleaves'⟩ := h v left hleft
  exact ⟨left', hleft', hleaves.trans hleaves'⟩

theorem Keeps.stays {v : Value} {cell : Cell} (h : heap.Keeps before)
    (hcell : before.cell? v = some cell) (hstays : ∀ left, cell.Leaves left → left = cell) :
    heap.cell? v = some cell := by
  obtain ⟨left, hleft, hleaves⟩ := h v cell hcell
  rwa [hstays left hleaves] at hleft

theorem keeps_replace {address : Nat} {cell left : Cell} (hcell : heap.cells[address]? = some cell)
    (hleaves : cell.Leaves left) : (heap.replace address left).Keeps heap := by
  intro v other hother
  cases v with
  | ref a =>
    obtain ⟨hlt, -⟩ := Array.getElem?_eq_some_iff.mp hcell
    change heap.cells[a]? = some other at hother
    change ∃ found, (heap.cells.setIfInBounds address left)[a]? = some found ∧ other.Leaves found
    by_cases ha : address = a
    · subst ha
      rw [hcell, Option.some.injEq] at hother
      subst hother
      exact ⟨left, by simp [hlt], hleaves⟩
    · exact ⟨other, by simp [Array.getElem?_setIfInBounds_ne ha, hother], .same other⟩
  | _ => cases hother

end Heap

instance : QuietFrame fun s u => u.heap.Keeps s.heap where
  refl s := .refl s.heap
  trans _ _ _ h h' := h'.trans h
  allocates s cell _ := (Heap.extends_allocate s.heap cell).keeps
  counts s := .refl s.heap
  logs s _ := .refl s.heap
  empties _ _ items h := Heap.keeps_replace h (.emptied items)
  unmaps _ _ entries h := Heap.keeps_replace h (.unmapped entries)
  clears _ _ r h := Heap.keeps_replace h (.cleared r r.clear)

theorem Session.Reaches.keeps {s u : Session} (h : s.Reaches u) : u.heap.Keeps s.heap :=
  h (fun s u => u.heap.Keeps s.heap) inferInstance

end FunctionManifest
