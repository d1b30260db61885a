import FunctionManifest.Proofs.Language.Asking

/-!
# Ordinary objects

Objects are asked by name for what they are to a manifest. One that was given an attribute of such a
name answers by that, whatever it calls and wherever that declares something. Others answer by
themselves.
-/

namespace FunctionManifest

/-- What objects are asked to do by their names. -/
def askedNames : List String :=
  ["clear", "items", "register", "render", "rstrip", "specs", "split", "strip", "to_spec",
    "to_wire", "with_entry_point", "with_platform"]

/-- The object does what it is asked to do by itself: it was not given anything that does it
instead. -/
def Cell.IsOrdinary (cell : Cell) : Prop :=
  ∀ name ∈ askedNames, Assoc.get? cell.attributes (Text.ofString name) = none

theorem Cell.isOrdinary_of_bare {cell : Cell} (h : cell.attributes = []) : cell.IsOrdinary := by
  intro name _
  rw [h]
  rfl

theorem Cell.fixed?_asked {name : String} (hname : name ∈ askedNames) (cell : Cell) :
    cell.fixed? name = none := by
  have hstored (p : Param) : p.stored? name = none := by
    unfold Param.stored?
    split <;> first | rfl | simp [askedNames] at hname
  have hsecret (s : Secret) : s.stored? name = none := by
    unfold Secret.stored?
    split <;> first | rfl | simp [askedNames] at hname
  have hparts : cell.parts?.bind (·.lookup name) = none := by
    have hnames : ∀ known ∈ (cell.parts?.getD []).map Prod.fst, known ∉ askedNames := by
      cases cell with
      | formula f => cases f <;> simp [Cell.parts?, Formula.parts, askedNames]
      | prompt p => cases p <;> simp [Cell.parts?, Prompt.parts, askedNames]
      | segment sort => cases sort <;> simp [Cell.parts?, SegmentSort.field, askedNames]
      | _ => simp [Cell.parts?, Endpoint.fields, askedNames]
    cases hcell : cell.parts? with
    | none => rfl
    | some parts =>
      rw [hcell] at hnames
      refine List.lookup_eq_none_iff.mpr fun part hpart => ?_
      have hknown := hnames part.1 (List.mem_map_of_mem hpart)
      simpa using fun heq : name = part.1 => hknown (heq ▸ hname)
  fun_cases Cell.fixed? cell name <;> first | assumption | exact hstored _ | exact hsecret _ |
    simp [askedNames] at hname

namespace Heap

def IsOrdinary (heap : Heap) : Prop := ∀ cell ∈ heap.cells, cell.IsOrdinary

theorem IsOrdinary.allocate {heap : Heap} (h : heap.IsOrdinary) {cell : Cell}
    (hcell : cell.IsOrdinary) :
    (heap.allocate cell).2.IsOrdinary := by
  intro other hother
  rcases Array.mem_push.mp hother with hother | rfl
  · exact h other hother
  · exact hcell

theorem IsOrdinary.replace {heap : Heap} (h : heap.IsOrdinary) (address : Nat) {cell : Cell}
    (hcell : cell.IsOrdinary) :
    (heap.replace address cell).IsOrdinary := by
  intro other hother
  rcases Array.mem_or_eq_of_mem_setIfInBounds hother with hother | rfl
  · exact h other hother
  · exact hcell

mutual

theorem IsOrdinary.intern {heap : Heap} (h : heap.IsOrdinary) :
    (v : Value) → (heap.intern v).2.IsOrdinary
  | .list items => (h.internItems items).allocate fun _ _ => rfl
  | .tuple [] => h
  | .tuple (v :: rest) => (h.internItems (v :: rest)).allocate fun _ _ => rfl
  | .mapping entries => (h.internEntries entries).allocate fun _ _ => rfl
  | .null | .bool _ | .int _ | .float _ | .text _ | .ref _ => h

theorem IsOrdinary.internItems {heap : Heap} (h : heap.IsOrdinary) :
    (items : List Value) → (heap.internItems items).2.IsOrdinary
  | [] => h
  | v :: rest => (h.intern v).internItems rest

theorem IsOrdinary.internEntries {heap : Heap} (h : heap.IsOrdinary) :
    (entries : Entries) → (heap.internEntries entries).2.IsOrdinary
  | [] => h
  | (k, v) :: rest => ((h.intern k).intern v).internEntries rest

end

/-- Nothing is stored in place of what an ordinary object is asked to do. -/
theorem IsOrdinary.stored? {heap : Heap} (h : heap.IsOrdinary) {name : String}
    (hname : name ∈ askedNames) (v : Value) :
    heap.stored? v (Text.ofString name) = none := by
  have hexported : ∀ name ∈ askedNames, exportedName? (Text.ofString name) = none := by decide
  have hcell : (heap.cell? v).bind (·.stored? (Text.ofString name)) = none := by
    cases hfound : heap.cell? v with
    | none => rfl
    | some cell =>
      have hgiven := h cell (by
        cases v with
        | ref a => exact Array.mem_of_getElem? hfound
        | _ => cases hfound) name hname
      simp [Cell.stored?, hgiven, Cell.fixed?_asked hname]
  simp [Heap.stored?, hcell, hexported name hname]

end Heap

end FunctionManifest
