import FunctionManifest.Proofs.Wire.Plain

/-!
# Keeping trees

A tree becomes an object for each of its collections, the outer ones after the inner ones, so no
object leads back to itself. Opened again the objects give the same tree.
-/

namespace FunctionManifest

namespace Heap

variable {old new heap before later : Heap} {size : Nat} {v w : Value}

theorem Keeps.size_le (h : later.Keeps heap) : heap.cells.size ≤ later.cells.size := by
  by_contra hlt
  have hlast : later.cells.size < heap.cells.size := by omega
  obtain ⟨left, hleft, -⟩ := h (.ref later.cells.size) heap.cells[later.cells.size]
    (by simp [cell?, hlast])
  simp [cell?] at hleft

theorem Extends.size_le (h : later.Extends heap) : heap.cells.size ≤ later.cells.size :=
  h.keeps.size_le

/-- At some time between the two heaps the value was kept, as the second one and below this
address. -/
def Interns (old new : Heap) (size : Nat) (v w : Value) : Prop :=
  ∃ heap : Heap, heap.Extends old ∧ new.Extends (heap.intern v).2 ∧
    (heap.intern v).2.cells.size ≤ size ∧ (heap.intern v).1 = w

theorem interns_intern (heap : Heap) (v : Value) :
    Interns heap (heap.intern v).2 (heap.intern v).2.cells.size v (heap.intern v).1 :=
  ⟨heap, .refl heap, .refl _, Nat.le_refl _, rfl⟩

theorem isKept_intern (heap : Heap) (v : Value) : (heap.intern v).1.IsKept := by
  cases v with
  | tuple items => cases items <;> exact fun _ => rfl
  | _ => exact fun _ => rfl

namespace Interns

theorem mono (h : Interns old new size v w) (hlater : later.Extends new) :
    Interns old later size v w := by
  obtain ⟨heap, hold, hnew, hsize, hw⟩ := h
  exact ⟨heap, hold, hlater.trans hnew, hsize, hw⟩

theorem from_before (h : Interns old new size v w) (hbefore : old.Extends before) :
    Interns before new size v w := by
  obtain ⟨heap, hold, hnew, hsize, hw⟩ := h
  exact ⟨heap, hold.trans hbefore, hnew, hsize, hw⟩

theorem extends_of (h : Interns old new size v w) : new.Extends old := by
  obtain ⟨heap, hold, hnew, -, -⟩ := h
  exact (hnew.trans (extends_intern heap v)).trans hold

theorem eq_of_isKept (h : Interns old new size v w) (hkept : v.IsKept) : w = v := by
  obtain ⟨heap, -, -, -, rfl⟩ := h
  rw [hkept heap]

end Interns

theorem interns_internItems {items : List Value} (hnew : new.Extends (heap.internItems items).2) :
    List.Forall₂ (Interns heap new (heap.internItems items).2.cells.size) items
      (heap.internItems items).1 := by
  induction items generalizing heap with
  | nil => exact .nil
  | cons v rest ih =>
    have hrest := extends_internItems (heap.intern v).2 rest
    refine .cons ⟨heap, .refl heap, hnew.trans hrest, hrest.size_le, rfl⟩ ?_
    exact (ih hnew).imp fun _ _ h => h.from_before (extends_intern heap v)

theorem interns_internEntries {entries : Entries} (hkeys : ∀ entry ∈ entries, entry.1.IsKept)
    (hnew : new.Extends (heap.internEntries entries).2) :
    List.Forall₂ (AtKey (Interns heap new (heap.internEntries entries).2.cells.size)) entries
      (heap.internEntries entries).1 := by
  induction entries generalizing heap with
  | nil => exact .nil
  | cons entry rest ih =>
    obtain ⟨key, v⟩ := entry
    have hkey : heap.intern key = (key, heap) := hkeys (key, v) List.mem_cons_self heap
    simp only [internEntries, hkey] at hnew ⊢
    have hrest := extends_internEntries (heap.intern v).2 rest
    refine .cons (.intro ⟨heap, .refl heap, hnew.trans hrest, hrest.size_le, rfl⟩) ?_
    refine (ih (fun entry hentry => hkeys entry (List.mem_cons_of_mem _ hentry)) hnew).imp ?_
    exact fun _ _ h => h.imp fun _ h => h.from_before (extends_intern heap v)

/-- A new list, with its items kept below it. -/
theorem Interns.list {items : List Value} (h : Interns old new size (.list items) w) :
    ∃ address items', w = .ref address ∧ address < size ∧
      new.cell? w = some (.list items') ∧
      List.Forall₂ (Interns old new address) items items' := by
  obtain ⟨heap, hold, hnew, hsize, rfl⟩ := h
  let inner := heap.internItems items
  have hinner : new.Extends inner.2 := hnew.trans (extends_allocate _ _)
  refine ⟨inner.2.cells.size, inner.1, rfl, ?_, hnew _ _ (cell?_allocate_new _ _), ?_⟩
  · have hlast : (heap.intern (.list items)).2.cells.size = inner.2.cells.size + 1 := by
      simp [inner, intern, allocate]
    omega
  · exact (interns_internItems hinner).imp fun _ _ h => h.from_before hold

theorem Interns.mapping {entries : Entries} (h : Interns old new size (.mapping entries) w)
    (hkeys : ∀ entry ∈ entries, entry.1.IsKept) :
    ∃ address entries', w = .ref address ∧ address < size ∧
      new.cell? w = some (.mapping entries') ∧
      List.Forall₂ (AtKey (Interns old new address)) entries entries' := by
  obtain ⟨heap, hold, hnew, hsize, rfl⟩ := h
  let inner := heap.internEntries entries
  have hinner : new.Extends inner.2 := hnew.trans (extends_allocate _ _)
  refine ⟨inner.2.cells.size, inner.1, rfl, ?_, hnew _ _ (cell?_allocate_new _ _), ?_⟩
  · have hlast : (heap.intern (.mapping entries)).2.cells.size = inner.2.cells.size + 1 := by
      simp [inner, intern, allocate]
    omega
  · exact (interns_internEntries hkeys hinner).imp fun _ _ h => h.imp fun _ h => h.from_before hold

/-! ## Trees -/

/-- A tree of new lists and mappings that is less high than this. -/
inductive IsTree (heap : Heap) : Nat → Value → Prop
  | leaf {height : Nat} {v : Value} (h : heap.isLeaf v = true) : IsTree heap (height + 1) v
  | list {height : Nat} {items : List Value} (hitems : ∀ v ∈ items, IsTree heap height v) :
      IsTree heap (height + 1) (.list items)
  | mapping {height : Nat} {entries : Entries} (hkeys : ∀ entry ∈ entries, entry.1.IsKept)
      (hvalues : ∀ entry ∈ entries, IsTree heap height entry.2) :
      IsTree heap (height + 1) (.mapping entries)

theorem isKept_of_isLeaf (h : heap.isLeaf v = true) : v.IsKept := by
  cases v with
  | list | tuple | mapping => cases h
  | _ => exact fun _ => rfl

namespace IsTree

variable {height : Nat} {tree : Value}

theorem mono (h : heap.IsTree height tree) (hlater : later.Keeps heap) :
    later.IsTree height tree := by
  induction h with
  | leaf h => exact .leaf (hlater.isLeaf h)
  | list _ ih => exact .list ih
  | mapping hkeys _ ih => exact .mapping hkeys ih

/-- A tree that was kept is written in the heap. -/
theorem writes (h : old.IsTree height tree) (hw : Interns old new size tree w) :
    new.Writes w tree := by
  induction h generalizing size w with
  | leaf h =>
    rw [hw.eq_of_isKept (isKept_of_isLeaf h)]
    exact .leaf (hw.extends_of.keeps.isLeaf h)
  | list _ ih =>
    obtain ⟨address, items', rfl, -, hcell, hitems⟩ := hw.list
    have hcontent : new.content (.ref address) = .list items' := by simp [content, hcell]
    have hwritten : List.Forall₂ (flip new.Writes) _ items' :=
      forall₂_imp_of_mem hitems fun v hv _ => ih v hv
    exact .list hcontent hwritten.flip
  | mapping hkeys _ ih =>
    obtain ⟨address, entries', rfl, -, hcell, hentries⟩ := hw.mapping hkeys
    have hcontent : new.content (.ref address) = .mapping entries' := by simp [content, hcell]
    have hwritten : List.Forall₂ (AtKey (flip new.Writes)) _ entries' :=
      forall₂_imp_of_mem hentries fun entry hentry _ h => h.imp fun _ => ih entry hentry
    exact .mapping hcontent (hwritten.flip.imp fun _ _ h => h.flip)

end IsTree

end Heap

/-! ## Converting again -/

open Eval

variable {ask : Asking Eval}

theorem wireItems_eq_pure {items : List Setting} {trees : List Value}
    (h : List.Forall₂ (fun tree item => item.wire ask = pure tree) trees items) :
    wireItems ask items = pure trees := by
  induction h with
  | nil => rfl
  | cons hfirst _ ih => simp [wireItems, hfirst, ih]

theorem wireEntries_eq_pure {entries : List (Value × Setting)} {trees : Entries}
    (h : List.Forall₂ (fun tree entry => entry.1 = tree.1 ∧ entry.2.wire ask = pure tree.2) trees
      entries) : wireEntries ask entries = pure trees := by
  induction h with
  | nil => rfl
  | @cons tree entry _ _ hfirst _ ih =>
    obtain ⟨key, item⟩ := entry
    obtain ⟨rfl, hitem⟩ := hfirst
    simp [wireEntries, hitem, ih]

namespace Heap

variable {old new heap : Heap} {size fuel : Nat} {v w tree : Value} {way way' : List Nat}

theorem settingFrom_of_isLeaf (h : heap.isLeaf v = true) :
    heap.settingFrom (fuel + 1) way v = .kept v := by
  cases v with
  | ref address =>
    obtain ⟨cell, hcell, hoff, hopened⟩ := isLeaf_ref_iff.mp h
    have hcell : heap.cell? (.ref address) = some cell := hcell
    rw [settingFrom, content_of_isLeaf h]
    cases cell <;> simp [Cell.isOffWire, Cell.isTakenApart] at hoff hopened <;> simp [hcell]
  | list | tuple | mapping => cases h
  | _ => rfl

theorem settingFrom_list {items : List Value} (hcell : heap.cell? v = some (.list items))
    (hway : enter? way v = some way') :
    heap.settingFrom (fuel + 1) way v = .list (items.map (heap.settingFrom fuel way')) := by
  simp [settingFrom, content, hcell, hway]

theorem settingFrom_mapping {entries : Entries} (hcell : heap.cell? v = some (.mapping entries))
    (hway : enter? way v = some way') :
    heap.settingFrom (fuel + 1) way v =
      .mapping (entries.map fun entry => (entry.1, heap.settingFrom fuel way' entry.2)) := by
  simp [settingFrom, content, hcell, hway]

theorem enter?_below {address : Nat} (hway : ∀ a ∈ way, size ≤ a) (hlt : address < size) :
    enter? way (.ref address) = some (address :: way) ∧ ∀ a ∈ address :: way, address ≤ a := by
  have hnew : address ∉ way := fun hmem => by
    have hle := hway address hmem
    omega
  refine ⟨by simp [enter?, hnew], fun a ha => ?_⟩
  rcases List.mem_cons.mp ha with rfl | ha
  · exact Nat.le_refl a
  · have hle := hway a ha
    omega

/-- Opening a tree that was kept never leads back, and nothing in it is left to be asked. -/
theorem IsTree.wire_kept (h : old.IsTree fuel tree) (hw : Interns old new size tree w)
    (hway : ∀ a ∈ way, size ≤ a) : (new.settingFrom fuel way w).wire ask = pure tree := by
  induction h generalizing size w way with
  | leaf h =>
    rw [hw.eq_of_isKept (isKept_of_isLeaf h),
      settingFrom_of_isLeaf (hw.extends_of.keeps.isLeaf h), Setting.wire]
  -- The new way ends at the collection, and all of its parts were kept below it.
  | @list fuel items _ ih =>
    obtain ⟨address, items', rfl, hlt, hcell, hitems⟩ := hw.list
    obtain ⟨henter, hbelow⟩ := enter?_below hway hlt
    have hwritten : List.Forall₂ (fun tree item => item.wire ask = pure tree) items
        (items'.map (new.settingFrom fuel (address :: way))) :=
      List.forall₂_map_right_iff.mpr (forall₂_imp_of_mem hitems fun v hv _ h => ih v hv h hbelow)
    rw [settingFrom_list hcell henter, Setting.wire, wireItems_eq_pure hwritten, pure_bind]
  | @mapping fuel entries hkeys _ ih =>
    obtain ⟨address, entries', rfl, hlt, hcell, hentries⟩ := hw.mapping hkeys
    obtain ⟨henter, hbelow⟩ := enter?_below hway hlt
    have hwritten : List.Forall₂
        (fun tree entry => entry.1 = tree.1 ∧ entry.2.wire ask = pure tree.2) entries
        (entries'.map fun entry => (entry.1, new.settingFrom fuel (address :: way) entry.2)) := by
      refine List.forall₂_map_right_iff.mpr (forall₂_imp_of_mem hentries fun entry hentry _ h => ?_)
      cases h with
      | intro h => exact ⟨rfl, ih _ hentry h hbelow⟩
    rw [settingFrom_mapping hcell henter, Setting.wire, wireEntries_eq_pure hwritten, pure_bind]

end Heap

end FunctionManifest
