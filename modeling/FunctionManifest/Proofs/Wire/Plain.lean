import FunctionManifest.Proofs.Session.Reaching
import Mathlib.Logic.Relation

/-!
# Plain values

What stands on the wire is made of mappings and lists only, as deep as it goes, and of what no tool
takes apart.
-/

namespace FunctionManifest

/-- Entries of one key, with values that are related. -/
inductive AtKey (R : Value → Value → Prop) : Value × Value → Value × Value → Prop
  | intro {key v w : Value} (value : R v w) : AtKey R (key, v) (key, w)

namespace AtKey

variable {R S : Value → Value → Prop} {entry new : Value × Value}

theorem imp (h : AtKey R entry new) (himp : ∀ w, R entry.2 w → S entry.2 w) : AtKey S entry new := by
  cases h with
  | intro h => exact .intro (himp _ h)

theorem flip (h : AtKey R entry new) : AtKey (flip R) new entry := by
  cases h with
  | intro h => exact .intro h

end AtKey

/-- Objects that something else stands for on the wire. -/
def Cell.isOffWire : Cell → Bool
  | .formula _ | .param _ | .reset | .pattern .. | .regex _ | .tuple _ => true
  | _ => false

/-- Objects that a tool takes apart. -/
def Cell.isTakenApart : Cell → Bool
  | .list _ | .mapping _ => true
  | _ => false

/-- An atom, or a reference to one of so many objects. -/
def Value.isBelow (size : Nat) : Value → Bool
  | .ref address => address < size
  | .list _ | .tuple _ | .mapping _ => false
  | _ => true

/-- The collection has nothing but atoms and references to so many objects. -/
def Cell.isBelow (size : Nat) : Cell → Bool
  | .list items | .tuple items => items.all (·.isBelow size)
  | .mapping entries => entries.all fun entry => entry.1.isBelow size && entry.2.isBelow size
  | _ => true

namespace Heap

variable {heap later : Heap} {v w x : Value}

/-! ## What is inside -/

def isOffWire (heap : Heap) : Value → Bool
  | .tuple _ => true
  | v => (heap.cell? v).any Cell.isOffWire

/-- Atoms, and objects that are kept as they are. -/
def isLeaf (heap : Heap) : Value → Bool
  | .list _ | .tuple _ | .mapping _ => false
  | .ref address => heap.cells[address]?.any fun cell => !cell.isOffWire && !cell.isTakenApart
  | _ => true

/-- The items of a sequence, and the values of a mapping. -/
def parts (heap : Heap) (v : Value) : List Value :=
  match heap.content v with
  | .list items | .tuple items => items
  | .mapping entries => entries.map Prod.snd
  | _ => []

/-- The value is somewhere inside the first one. -/
def Inside (heap : Heap) : Value → Value → Prop :=
  Relation.ReflTransGen fun v part => part ∈ heap.parts v

/-- Nothing inside has to be converted. -/
def IsPlain (heap : Heap) (v : Value) : Prop := ∀ x, heap.Inside v x → heap.isOffWire x = false

/-- The value as a tree: mappings and lists are opened, and all else is kept. -/
inductive Writes (heap : Heap) : Value → Value → Prop
  | leaf {v : Value} (h : heap.isLeaf v = true) : Writes heap v v
  | list {v : Value} {items trees : List Value} (hcontent : heap.content v = .list items)
      (hitems : List.Forall₂ (Writes heap) items trees) : Writes heap v (.list trees)
  | mapping {v : Value} {entries written : Entries} (hcontent : heap.content v = .mapping entries)
      (hentries : List.Forall₂ (AtKey (Writes heap)) entries written) :
      Writes heap v (.mapping written)

theorem isLeaf_ref_iff {address : Nat} :
    heap.isLeaf (.ref address) = true ↔ ∃ cell, heap.cells[address]? = some cell ∧
      cell.isOffWire = false ∧ cell.isTakenApart = false := by
  simp [isLeaf, Option.any_eq_true]

theorem content_of_isLeaf (h : heap.isLeaf v = true) : heap.content v = v := by
  cases v with
  | ref address =>
    obtain ⟨cell, hcell, hoff, hopened⟩ := isLeaf_ref_iff.mp h
    cases cell <;> simp [Cell.isOffWire, Cell.isTakenApart] at hoff hopened <;>
      simp [content, cell?, hcell]
  | _ => rfl

theorem parts_of_isLeaf (h : heap.isLeaf v = true) : heap.parts v = [] := by
  unfold parts
  rw [content_of_isLeaf h]
  cases v <;> simp [isLeaf] at h ⊢

theorem isOffWire_of_isLeaf (h : heap.isLeaf v = true) : heap.isOffWire v = false := by
  cases v with
  | ref address =>
    obtain ⟨cell, hcell, hoff, -⟩ := isLeaf_ref_iff.mp h
    simp [isOffWire, cell?, hcell, hoff]
  | tuple items => simp [isLeaf] at h
  | _ => rfl

theorem isOffWire_of_opened (hopened : ∀ address, heap.content v ≠ .ref address)
    (htuple : ∀ items, heap.content v ≠ .tuple items) : heap.isOffWire v = false := by
  cases v with
  | ref address =>
    cases hcell : heap.cell? (.ref address) with
    | none => simp [isOffWire, hcell]
    | some cell =>
      cases cell <;> simp [content, hcell] at hopened htuple <;>
        simp [isOffWire, hcell, Cell.isOffWire]
  | tuple items => exact absurd rfl (htuple items)
  | _ => rfl

/-! ## Trees -/

theorem Writes.isOffWire {tree : Value} (h : heap.Writes v tree) : heap.isOffWire v = false := by
  cases h with
  | leaf h => exact isOffWire_of_isLeaf h
  | list hcontent | mapping hcontent =>
    exact isOffWire_of_opened (by simp [hcontent]) (by simp [hcontent])

theorem Writes.part {tree : Value} (h : heap.Writes v tree) (hx : x ∈ heap.parts v) :
    ∃ tree, heap.Writes x tree := by
  cases h with
  | leaf h => simp [parts_of_isLeaf h] at hx
  | list hcontent hitems =>
    simp only [parts, hcontent] at hx
    exact (exists_right_of_forall₂ hitems hx).imp fun _ h => h.2
  | mapping hcontent hentries =>
    simp only [parts, hcontent, List.mem_map] at hx
    obtain ⟨entry, hentry, rfl⟩ := hx
    obtain ⟨_, -, hvalue⟩ := exists_right_of_forall₂ hentries hentry
    cases hvalue with
    | intro h => exact ⟨_, h⟩

theorem Writes.isPlain {tree : Value} (h : heap.Writes v tree) : heap.IsPlain v := by
  intro x hx
  -- Every value on the way inside is written as a tree of its own.
  suffices hwritten : ∃ tree, heap.Writes x tree from hwritten.elim fun _ h => h.isOffWire
  induction hx with
  | refl => exact ⟨tree, h⟩
  | tail _ hpart ih => exact ih.elim fun _ h => h.part hpart

/-! ## What is known -/

/-- The value refers to an object if it is a reference, and no key is a new collection. -/
structure IsSound (heap : Heap) (v : Value) : Prop where
  refers : ∀ address, v = .ref address → ∃ cell, heap.cells[address]? = some cell
  keys : ∀ entries, heap.content v = .mapping entries → ∀ entry ∈ entries, entry.1.IsKept

/-- All that the value leads to is there. -/
def Knows (heap : Heap) (v : Value) : Prop := ∀ x, heap.Inside v x → heap.IsSound x

theorem Knows.isSound (h : heap.Knows v) : heap.IsSound v := h v .refl

theorem Knows.part (h : heap.Knows v) (hx : x ∈ heap.parts v) : heap.Knows x := fun y hy =>
  h y (.head hx hy)

/-- No collection refers to an object that is not there. -/
def isWhole (heap : Heap) : Bool := heap.cells.all (·.isBelow heap.cells.size)

theorem isKept_of_isBelow {size : Nat} (h : v.isBelow size = true) : v.IsKept := by
  cases v with
  | list | tuple | mapping => cases h
  | _ => exact fun _ => rfl

theorem isBelow_of_cell? {cell : Cell} (h : heap.isWhole = true) (hcell : heap.cell? v = some cell) :
    cell.isBelow heap.cells.size = true := by
  cases v with
  | ref address => exact Array.all_eq_true'.mp h cell (Array.mem_of_getElem? hcell)
  | _ => cases hcell

theorem isBelow_of_mem_parts (h : heap.isWhole = true) (hv : v.isBelow heap.cells.size = true)
    (hx : x ∈ heap.parts v) : x.isBelow heap.cells.size = true := by
  cases hcell : heap.cell? v with
  | none => cases v <;> simp [parts, content, hcell, Value.isBelow] at hx hv
  | some cell =>
    have hbelow := isBelow_of_cell? h hcell
    cases v with
    | ref address =>
      cases cell <;> simp [parts, content, hcell] at hx <;>
        simp only [Cell.isBelow, List.all_eq_true, Bool.and_eq_true] at hbelow
      · exact hbelow x hx
      · exact hbelow x hx
      · obtain ⟨key, hentry⟩ := hx
        exact (hbelow (key, x) hentry).2
    | _ => cases hcell

theorem isSound_of_isBelow (h : heap.isWhole = true) (hv : v.isBelow heap.cells.size = true) :
    heap.IsSound v where
  refers address hv' := by
    subst hv'
    exact ⟨_, Array.getElem?_eq_getElem (by simpa [Value.isBelow] using hv)⟩
  keys entries hentries entry hentry := by
    have hcell : heap.cell? v = some (.mapping entries) := by
      unfold content at hentries
      split at hentries <;> simp_all [Value.isBelow]
    have hbelow := isBelow_of_cell? h hcell
    simp only [Cell.isBelow, List.all_eq_true, Bool.and_eq_true] at hbelow
    exact isKept_of_isBelow (hbelow entry hentry).1

/-- Where no reference leads nowhere, all that a value leads to is there. -/
theorem knows_of_isWhole (h : heap.isWhole = true) (hv : v.isBelow heap.cells.size = true) :
    heap.Knows v := by
  intro x hx
  suffices hbelow : x.isBelow heap.cells.size = true from isSound_of_isBelow h hbelow
  induction hx with
  | refl => exact hv
  | tail _ hpart ih => exact isBelow_of_mem_parts h ih hpart

/-- What is neither converted nor opened is kept as it is. -/
theorem isLeaf_of_isSound (hsound : heap.IsSound v)
    (hcell : ∀ cell, heap.cell? v = some cell → cell.isOffWire = true → ∃ items, cell = .tuple items)
    (hlist : ∀ items, heap.content v ≠ .list items) (htuple : ∀ items, heap.content v ≠ .tuple items)
    (hmapping : ∀ entries, heap.content v ≠ .mapping entries) : heap.isLeaf v = true := by
  cases v with
  | ref address =>
    obtain ⟨cell, hfound⟩ := hsound.refers address rfl
    have hcontent : heap.cell? (.ref address) = some cell := hfound
    have hcell := hcell cell hcontent
    refine isLeaf_ref_iff.mpr ⟨cell, hfound, ?_⟩
    cases cell <;> simp [content, hcontent] at hlist htuple hmapping <;>
      simp [Cell.isOffWire, Cell.isTakenApart] at hcell ⊢
  | list items => exact absurd rfl (hlist items)
  | tuple items => exact absurd rfl (htuple items)
  | mapping entries => exact absurd rfl (hmapping entries)
  | _ => rfl

/-- Of a value that is known the content stays the same, or nothing is left of it. -/
theorem Keeps.content (h : later.Keeps heap) (hv : heap.IsSound v) :
    later.content v = heap.content v ∨ later.content v = .list [] ∨
      later.content v = .mapping [] := by
  cases v with
  | ref address =>
    obtain ⟨cell, hcell⟩ := hv.refers address rfl
    obtain ⟨left, hleft, hleaves⟩ := h (.ref address) cell hcell
    change later.cells[address]? = some left at hleft
    cases hleaves <;> simp [Heap.content, cell?, hcell, hleft]
  | _ => exact .inl rfl

theorem Keeps.mapping {entries : Entries} (h : later.Keeps heap)
    (hcontent : heap.content v = .mapping entries) :
    ∃ entries', later.content v = .mapping entries' := by
  cases v with
  | ref address =>
    cases hcell : heap.cell? (.ref address) with
    | none => simp [Heap.content, hcell] at hcontent
    | some cell =>
      obtain ⟨left, hleft, hleaves⟩ := h (.ref address) cell hcell
      cases hleaves with
      | same =>
        rw [Heap.content, hcell] at hcontent
        rw [Heap.content, hleft]
        exact ⟨entries, hcontent⟩
      | emptied | cleared => simp [Heap.content, hcell] at hcontent
      | unmapped => exact ⟨[], by simp [Heap.content, hleft]⟩
  | mapping own => exact ⟨own, rfl⟩
  | _ => cases hcontent

theorem Keeps.parts (h : later.Keeps heap) (hv : heap.IsSound v) (hx : x ∈ later.parts v) :
    x ∈ heap.parts v := by
  rcases h.content hv with hcontent | hcontent | hcontent
  · rwa [Heap.parts, hcontent] at hx
  · simp [Heap.parts, hcontent] at hx
  · simp [Heap.parts, hcontent] at hx

theorem Keeps.isSound (h : later.Keeps heap) (hv : heap.IsSound v) : later.IsSound v where
  refers address hcell := by
    obtain ⟨cell, hcell⟩ := hv.refers address hcell
    obtain ⟨left, hleft, -⟩ := h (.ref address) cell hcell
    exact ⟨left, hleft⟩
  keys entries hentries entry hentry := by
    rcases h.content hv with hcontent | hcontent | hcontent
    · exact hv.keys entries (hcontent ▸ hentries) entry hentry
    · rw [hcontent] at hentries
      cases hentries
    · rw [hcontent, Value.mapping.injEq] at hentries
      subst hentries
      cases hentry

theorem Knows.mono (h : heap.Knows v) (hlater : later.Keeps heap) : later.Knows v := by
  intro x hx
  -- Collections only lose parts, so a way inside was there before.
  suffices hinside : heap.Inside v x from hlater.isSound (h x hinside)
  induction hx with
  | refl => exact .refl
  | tail _ hpart ih => exact ih.tail (hlater.parts (h _ ih) hpart)

theorem Keeps.isLeaf (h : later.Keeps heap) (hv : heap.isLeaf v = true) : later.isLeaf v = true := by
  cases v with
  | ref address =>
    obtain ⟨cell, hcell, hoff, hopened⟩ := isLeaf_ref_iff.mp hv
    obtain ⟨left, hleft, hleaves⟩ := h (.ref address) cell hcell
    refine isLeaf_ref_iff.mpr ⟨left, hleft, ?_⟩
    cases hleaves with
    | same => exact ⟨hoff, hopened⟩
    | emptied | unmapped => cases hopened
    | cleared => exact ⟨rfl, rfl⟩
  | _ => exact hv

end Heap

end FunctionManifest
