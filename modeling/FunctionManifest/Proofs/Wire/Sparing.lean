import FunctionManifest.Proofs.Language.Frame
import FunctionManifest.Proofs.Steps
import FunctionManifest.Proofs.Wire.Plain

/-!
# What calls spare

A call without arguments empties a collection only by a method that is kept for it, and it makes
such a method only for the current registry. So whatever is newer than all objects for which such
methods are kept stays as it is. What a session holds already when a call begins is never newer:
a method is only kept for an object that is there.
-/

namespace FunctionManifest

/-- All that could be emptied is below this address. -/
def Heap.clearsBelow (heap : Heap) (size : Nat) : Bool :=
  heap.scopes.current.isBelow size &&
    heap.cells.all fun cell => cell.emptied?.all (·.isBelow size)

/-- The value is a mapping that was made since there were so many objects. -/
def Heap.HasNew (heap : Heap) (size : Nat) (v : Value) (entries : Entries) : Prop :=
  ∃ address, v = .ref address ∧ size ≤ address ∧ heap.cell? v = some (.mapping entries)

/-- From this address on the objects stay, other than registries, and they can still not be emptied. -/
def Session.LeavesNew (size : Nat) (s u : Session) : Prop :=
  s.heap.clearsBelow size = true → u.heap.clearsBelow size = true ∧
    ∀ address cell, size ≤ address → s.heap.cells[address]? = some cell →
      (∀ r, cell ≠ .registry r) → u.heap.cells[address]? = some cell

namespace Heap

variable {heap : Heap} {size : Nat}

theorem clearsBelow_iff : heap.clearsBelow size = true ↔
    heap.scopes.current.isBelow size = true ∧
      ∀ v cell w, heap.cell? v = some cell → cell.emptied? = some w → w.isBelow size = true := by
  rw [clearsBelow, Bool.and_eq_true, Array.all_eq_true']
  refine and_congr_right fun _ => ⟨fun h v cell w hcell hw => ?_, fun h cell hcell => ?_⟩
  · cases v with
    | ref address => simpa [hw] using h cell (Array.mem_of_getElem? hcell)
    | _ => cases hcell
  · obtain ⟨address, hcell⟩ := Array.mem_iff_getElem?.mp hcell
    cases hw : cell.emptied? with
    | none => rfl
    | some w => exact h (.ref address) cell w hcell hw

theorem clearsBelow_mono {size' : Nat} (h : heap.clearsBelow size = true) (hle : size ≤ size') :
    heap.clearsBelow size' = true := by
  have hvalue : ∀ v : Value, v.isBelow size = true → v.isBelow size' = true := by
    intro v hv
    cases v with
    | ref address => exact decide_eq_true (Nat.lt_of_lt_of_le (of_decide_eq_true hv) hle)
    | _ => exact hv
  obtain ⟨hcurrent, hkept⟩ := clearsBelow_iff.mp h
  exact clearsBelow_iff.mpr ⟨hvalue _ hcurrent, fun v cell w hcell hw =>
    hvalue w (hkept v cell w hcell hw)⟩

theorem clearsBelow_allocate (h : heap.clearsBelow size = true) {cell : Cell}
    (hcell : ∀ v, cell.emptied? = some v → v.isBelow size = true) :
    (heap.allocate cell).2.clearsBelow size = true := by
  obtain ⟨hcurrent, hkept⟩ := (Bool.and_eq_true _ _).mp h
  have hnew : cell.emptied?.all (·.isBelow size) = true := by
    cases hv : cell.emptied? with
    | none => rfl
    | some v => exact hcell v hv
  simp [clearsBelow, allocate, hcurrent, hkept, hnew]

theorem clearsBelow_replace (h : heap.clearsBelow size = true) (address : Nat) {cell : Cell}
    (hcell : cell.emptied? = none) : (heap.replace address cell).clearsBelow size = true := by
  obtain ⟨hcurrent, hkept⟩ := clearsBelow_iff.mp h
  refine clearsBelow_iff.mpr ⟨hcurrent, fun v found w hfound hw => ?_⟩
  cases v with
  | ref a =>
    change (heap.cells.setIfInBounds address cell)[a]? = some found at hfound
    rw [Array.getElem?_setIfInBounds] at hfound
    split at hfound
    · split at hfound
      · cases hfound
        rw [hcell] at hw
        cases hw
      · cases hfound
    · exact hkept (.ref a) found w hfound hw
  | _ => cases hfound

/-- What is emptied by a kept method is not among the new objects. -/
theorem lt_of_emptied (h : heap.clearsBelow size = true) {address : Nat}
    (hkept : ∃ v cell, heap.cell? v = some cell ∧ cell.emptied? = some (.ref address)) :
    address < size := by
  obtain ⟨v, cell, hcell, hw⟩ := hkept
  simpa [Value.isBelow] using (clearsBelow_iff.mp h).2 v cell _ hcell hw

theorem getElem?_replace_of_ne {address other : Nat} (h : address ≠ other) (cell : Cell) :
    (heap.replace address cell).cells[other]? = heap.cells[other]? := by
  simp [replace, Array.getElem?_setIfInBounds_ne h]

end Heap

/-- Emptying an object that is old. -/
theorem leavesNew_replace {size address : Nat} {s : Session} {cell : Cell}
    (hcell : cell.emptied? = none) (hold : s.heap.clearsBelow size = true → address < size) :
    s.LeavesNew size { s with heap := s.heap.replace address cell } := by
  intro h
  refine ⟨Heap.clearsBelow_replace h address hcell, fun other found hle hfound _ => ?_⟩
  have hlt := hold h
  exact (Heap.getElem?_replace_of_ne (by omega) cell).trans hfound

instance (size : Nat) : AskingFrame (Session.LeavesNew size) where
  refl s h := ⟨h, fun _ _ _ hcell _ => hcell⟩
  trans _ _ _ h h' hs := by
    obtain ⟨hu, hkeeps⟩ := h hs
    obtain ⟨ht, hkeeps'⟩ := h' hu
    exact ⟨ht, fun address cell hle hcell hother =>
      hkeeps' address cell hle (hkeeps address cell hle hcell hother) hother⟩
  allocates s cell hcell h := by
    have hcurrent := (Heap.clearsBelow_iff.mp h).1
    refine ⟨Heap.clearsBelow_allocate h fun v hv => hcell v hv ▸ hcurrent,
      fun address found _ hfound _ => ?_⟩
    exact Heap.extends_allocate s.heap cell (.ref address) found hfound
  counts s h := ⟨h, fun _ _ _ hcell _ => hcell⟩
  logs s entry h := ⟨h, fun _ _ _ hcell _ => hcell⟩
  empties s address items hkept _ := leavesNew_replace rfl fun h => Heap.lt_of_emptied h hkept
  unmaps s address entries hkept _ := leavesNew_replace rfl fun h => Heap.lt_of_emptied h hkept
  clears s address r hr h := by
    refine ⟨Heap.clearsBelow_replace h address rfl, fun other found _ hfound hother => ?_⟩
    -- A registry can be new, but no other object is in its place.
    have hne : address ≠ other := by
      rintro rfl
      rw [hr, Option.some.injEq] at hfound
      exact hother r hfound.symm
    exact (Heap.getElem?_replace_of_ne hne _).trans hfound

/-! ## Settled sessions -/

/-- All that could be emptied is there. -/
def Session.Settled (s : Session) : Prop := s.heap.clearsBelow s.heap.cells.size = true

namespace Session.Settled

variable {s : Session}

theorem fresh (project : Project) (environment : Environment) :
    (Session.fresh project environment).Settled := by
  change Heap.initial.clearsBelow Heap.initial.cells.size = true
  decide +kernel

theorem replace (h : s.Settled) (address : Nat) {cell : Cell} (hcell : cell.emptied? = none) :
    Settled { s with heap := s.heap.replace address cell } := by
  have hsize : (s.heap.replace address cell).cells.size = s.heap.cells.size :=
    Array.size_setIfInBounds
  rw [Settled, hsize]
  exact Heap.clearsBelow_replace h address hcell

theorem allocate (h : s.Settled) {cell : Cell} (hcell : s.MayKeep cell) :
    Settled { s with heap := (s.heap.allocate cell).2 } := by
  have hlater : (s.heap.allocate cell).2.clearsBelow s.heap.cells.size = true := by
    refine Heap.clearsBelow_allocate h fun v hv => ?_
    obtain rfl | ⟨there, hthere⟩ := hcell v hv
    · exact (Heap.clearsBelow_iff.mp h).1
    · cases v with
      | ref address =>
        obtain ⟨hlt, -⟩ := Array.getElem?_eq_some_iff.mp hthere
        exact decide_eq_true hlt
      | _ => cases hthere
  exact Heap.clearsBelow_mono hlater (by simp [Heap.allocate])

end Session.Settled

/-- Setting an attribute makes no method. -/
theorem Cell.emptied?_of_with {heap : Heap} {cell cell' : Cell} {name : Text} {v : Value}
    (h : cell.with heap name v = .ok cell') : cell'.emptied? = none := by
  cases cell' with
  | method =>
    cases cell <;> simp only [Cell.with] at h <;> repeat' split at h
    all_goals simp [bind_eq_ok_iff, pure, Except.pure] at h
  | _ => rfl

instance : SettingFrame fun s t => s.Settled → t.Settled where
  refl _ h := h
  trans _ _ _ h h' hs := h' (h hs)
  allocates _ _ hcell h := h.allocate hcell
  counts _ h := h
  logs _ _ h := h
  refills _ address _ _ _ h := h.replace address rfl
  remaps _ address _ _ _ h := h.replace address rfl
  declares _ address _ _ _ _ _ h := h.replace address rfl
  clears _ address _ _ h := h.replace address rfl
  sets _ address _ _ _ _ _ hwith h := h.replace address (Cell.emptied?_of_with hwith)

/-- Whatever is evaluated, and however it ends, a method is only kept for what is there. -/
theorem Session.Settled.evaluate {s : Session} (h : s.Settled) (scope : Variables) (term : Term) :
    ((term.evaluate scope).on s).2.Settled :=
  within_evaluate (R := fun s t => s.Settled → t.Settled) scope term s h

/-! ## What is come to -/

/-- Whatever steps calls without arguments make, from the first session they can lead to the second. -/
def Session.ComesTo (s u : Session) : Prop := ∀ R : Session → Session → Prop, AskingFrame R → R s u

instance : AskingFrame Session.ComesTo where
  refl s R _ := refl_of R s
  trans _ _ _ h h' R hR := trans_of R (h R hR) (h' R hR)
  allocates s cell h _ _ := AskingFrame.allocates s cell h
  counts s _ _ := AskingFrame.counts s
  logs s entry _ _ := AskingFrame.logs s entry
  empties s address items hkept h _ _ := AskingFrame.empties s address items hkept h
  unmaps s address entries hkept h _ _ := AskingFrame.unmaps s address entries hkept h
  clears s address r h _ _ := AskingFrame.clears s address r h

namespace Session.ComesTo

variable {s t u : Session}

theorem refl (s : Session) : s.ComesTo s := refl_of Session.ComesTo s

theorem trans (h : s.ComesTo t) (h' : t.ComesTo u) : s.ComesTo u := trans_of Session.ComesTo h h'

theorem reaches (h : s.ComesTo u) : s.Reaches u := h Session.Reaches inferInstance

theorem leavesNew (h : s.ComesTo u) (size : Nat) : s.LeavesNew size u := h _ inferInstance

/-- What an action leaves of a session. -/
theorem after {α : Type} {action : Eval α} {result : Except Failure α} (h : s.ComesTo t)
    (hwithin : Eval.Within Session.ComesTo action) (hrun : action.on t = (result, u)) :
    s.ComesTo u := by
  have hstep := hwithin t
  rw [hrun] at hstep
  exact h.trans hstep

end Session.ComesTo

namespace Heap.HasNew

variable {heap later : Heap} {size : Nat} {v : Value} {entries : Entries}

theorem cell? (h : heap.HasNew size v entries) : heap.cell? v = some (.mapping entries) := by
  obtain ⟨_, -, -, hcell⟩ := h
  exact hcell

theorem mono (h : heap.HasNew size v entries) (hlater : later.Extends heap) :
    later.HasNew size v entries := by
  obtain ⟨address, hv, hle, hcell⟩ := h
  exact ⟨address, hv, hle, hlater _ _ hcell⟩

theorem of_le {size' : Nat} (h : heap.HasNew size v entries) (hle : size' ≤ size) :
    heap.HasNew size' v entries := by
  obtain ⟨address, hv, hsize, hcell⟩ := h
  exact ⟨address, hv, Nat.le_trans hle hsize, hcell⟩

/-- A new mapping cannot be emptied. -/
theorem after {s u : Session} (h : s.heap.HasNew size v entries)
    (hclears : s.heap.clearsBelow size = true) (hu : s.ComesTo u) :
    u.heap.HasNew size v entries := by
  obtain ⟨address, rfl, hle, hcell⟩ := h
  refine ⟨address, rfl, hle, ((hu.leavesNew size hclears).2 address _ hle hcell fun r hr => ?_)⟩
  cases hr

end Heap.HasNew

end FunctionManifest
