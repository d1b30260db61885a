import FunctionManifest.Proofs.Loading.Sharing
import FunctionManifest.Proofs.Relocation.Outcome

/-!
# Fresh processes

A process in which nothing is left of what happened in it is like a fresh one, whose objects are at
other addresses.
-/

namespace FunctionManifest

open Session

variable {ρ : Relocation} {u : Session} {registry : Nat}

/-! ## What every source shares -/

namespace Heap

theorem moved_constantCell (c : Constant) : moved ρ c.cell = c.cell := by
  cases c <;> rfl

theorem moved_moduleCell (name : String) : moved ρ (moduleCell name) = moduleCell name := by
  unfold moduleCell
  rw [moved_cell_module, moved_append, moved_field, moved_list, List.map_map]
  simp [Function.comp_def]

theorem moved_initialCells : initialCells.map (moved ρ) = initialCells := by
  simp [initialCells, Function.comp_def, moved_constantCell, moved_moduleCell]
  exact ⟨rfl, rfl, rfl⟩

/-- What every source shares does not depend on where else objects are kept. -/
theorem moved_initial (a : Nat) : moved ρ Heap.initial.cells[a]? = Heap.initial.cells[a]? := by
  have h := congrArg (fun cells : List Cell => cells[a]?) (moved_initialCells (ρ := ρ))
  simp only [List.getElem?_map] at h
  change Heap.initial.cells[a]?.map (moved ρ) = _
  simpa [initial] using h

end Heap

/-! ## Like a fresh process -/

/-- Nothing is left of what happened: no module, no place to look for modules, and no change of what
every source shares. An empty registry is at the address, which may be that of the first one. -/
structure Session.LikeFresh (u : Session) (registry : Nat) : Prop where
  loaded : u.loaded = []
  starting : u.starting = []
  searchPath : u.searchPath = []
  shared : ∀ a ≤ Heap.firstNative, a ≠ 1 → u.heap.cells[a]? = Heap.initial.cells[a]?
  place : registry = 1 ∨ Heap.firstNative < registry
  empty : u.heap.cells[registry]? = some (.registry .empty)
  packaged : ∀ a path, Assoc.get? u.packages a = some path →
    Heap.firstNative < a ∧ a < u.heap.cells.size ∧ a ≠ registry

namespace Session.LikeFresh

theorem firstNative_lt (h : u.LikeFresh registry) : Heap.firstNative < u.heap.cells.size := by
  have hlast : Heap.initial.cells[Heap.firstNative]?.isSome := by
    rw [isSome_getElem?, Heap.size_initial]
    simp
  rw [← h.shared _ (Nat.le_refl _) (by decide)] at hlast
  simpa using hlast

theorem registry_lt (h : u.LikeFresh registry) : registry < u.heap.cells.size :=
  (Array.getElem?_eq_some_iff.mp h.empty).1

/-- What is shared stays, the first registry is the one at the address, and whatever is made comes
after all that is there. -/
def relocation (h : u.LikeFresh registry) : Relocation where
  address a :=
    if a = 1 then registry
    else if a ≤ Heap.firstNative then a
    else a - (Heap.firstNative + 1) + u.heap.cells.size
  undefined n := if n = 0 then 0 else u.heap.undefined + n
  address_injective a b hab := by
    have hplace := h.place
    have hsize := h.firstNative_lt
    have hregistry := h.registry_lt
    dsimp only at hab
    split_ifs at hab <;> omega
  undefined_injective m n hmn := by
    dsimp only at hmn
    split_ifs at hmn <;> omega
  shared a hle hother := by simp [hle, hother]
  undefined_zero := rfl
  rest b := u.heap.cells[b]?
  restPath b := Assoc.get? u.packages b

/-- A fresh process is like this one. -/
theorem moved (h : u.LikeFresh registry) {declaring : Prop}
    (hcurrent : declaring → u.heap.scopes.current = .ref registry)
      (hordinary : declaring ∨ Heap.initial.IsOrdinary) :
    (Session.fresh u.project u.environment).Moved h.relocation declaring u where
  heap :=
    { cells := fun a => by
        rw [Session.fresh, Heap.moved_initial]
        have hone : Heap.initial.cells[1]? = some (.registry .empty) := rfl
        have hsize := Heap.size_initial
        simp only [relocation]
        split_ifs with hfirst hle
        · rw [hfirst, hone, h.empty]
        · exact h.shared a hle hfirst
        · have hnew : Heap.initial.cells.size ≤ a := by omega
          have hbehind : u.heap.cells.size ≤ a - (Heap.firstNative + 1) + u.heap.cells.size := by
            omega
          rw [Array.getElem?_eq_none hnew, Array.getElem?_eq_none hbehind]
      size := fun n => by
        have hsize := Heap.size_initial
        have hfirst : 1 < Heap.firstNative := by decide
        simp only [relocation, Session.fresh, hsize]
        split_ifs <;> omega
      undefined := fun n => by
        simp only [relocation, Session.fresh, Heap.initial]
        split_ifs <;> omega
      rest := fun _ _ => rfl }
  current hdeclaring := hcurrent hdeclaring
  ordinary := hordinary
  environment := rfl
  project := rfl
  loaded := h.loaded
  packages a := by
    change Assoc.get? u.packages (h.relocation.address a) = none
    cases hpath : Assoc.get? u.packages (h.relocation.address a) with
    | none => rfl
    | some path =>
      exfalso
      obtain ⟨hlt, hsize, hne⟩ := h.packaged _ path hpath
      simp only [relocation] at hlt hsize hne
      split_ifs at hlt hsize hne <;> omega
  restPath _ _ := rfl
  starting a := by rw [h.starting]; rfl
  searchPath := h.searchPath
  packaged a path hpath := by cases hpath
  shared := by
    rw [Session.fresh, Heap.size_initial]
    omega

end Session.LikeFresh

theorem Heap.isOrdinary_moduleCell {name : String} (hname : name ∈ Export.moduleNames) :
    (moduleCell name).IsOrdinary := by
  have hexports : ∀ name ∈ Export.moduleNames, ∀ entry ∈ Export.ofModule name,
      entry.1 ∉ askedNames := by decide +kernel
  intro asked hasked
  refine (Assoc.get?_eq_none_iff _ _).mpr fun hkey => ?_
  obtain ⟨entry, hentry, hsame⟩ := List.mem_map.mp hkey
  have hspelled := congrArg Text.spelled hsame
  rw [Text.spelled_ofString] at hspelled
  rcases List.mem_append.mp hentry with hentry | hentry
  · obtain rfl := List.mem_singleton.mp hentry
    rw [Text.spelled_ofString] at hspelled
    subst hspelled
    simp [askedNames] at hasked
  · obtain ⟨exported, hexported, rfl⟩ := List.mem_map.mp hentry
    rw [Text.spelled_ofString] at hspelled
    exact hexports name hname exported hexported (hspelled ▸ hasked)

theorem Heap.initial_isOrdinary : Heap.initial.IsOrdinary := by
  intro cell hcell
  simp only [initial, initialCells, List.mem_toArray, List.mem_append, List.mem_map] at hcell
  obtain (((hcell | ⟨c, -, rfl⟩) | ⟨b, -, rfl⟩) | ⟨name, hname, rfl⟩) | hcell := hcell
  · simp only [List.mem_cons, List.not_mem_nil, or_false] at hcell
    rcases hcell with rfl | rfl | rfl | rfl <;> exact fun _ _ => rfl
  · cases c <;> exact fun _ _ => rfl
  · exact fun _ _ => rfl
  · exact isOrdinary_moduleCell hname
  · obtain rfl := List.mem_singleton.mp hcell
    exact fun _ _ => rfl

/-- If no attribute was set of what every source shares, only the other objects can be told what
they are. -/
theorem Session.Apart.isOrdinary {s : Session} (hs : s.Apart)
    (huntouched : ∀ setting ∈ s.settings, Heap.firstNative < setting.1)
    (hnew : ∀ cell ∈ s.heap.cells.toList.drop (Heap.firstNative + 1), cell.IsOrdinary) :
    s.heap.IsOrdinary := by
  intro cell hcell
  obtain ⟨a, ha⟩ := Array.getElem?_of_mem hcell
  rcases Nat.lt_or_ge Heap.firstNative a with hlt | hle
  · refine hnew cell (List.mem_of_getElem? (i := a - (Heap.firstNative + 1)) ?_)
    rw [List.getElem?_drop, Array.getElem?_toList, ← ha]
    congr 1
    omega
  · obtain rfl | hother := eq_or_ne a 1
    · obtain ⟨r, hr⟩ := hs.registry
      obtain rfl := Option.some.inj (ha.symm.trans hr)
      exact Cell.isOrdinary_of_bare rfl
    · rw [hs.shared a hle hother fun setting hsetting heq => by
        have := huntouched setting hsetting
        omega] at ha
      exact Heap.initial_isOrdinary cell (Array.mem_of_getElem? ha)

/-! ## A spare registry -/

/-- The session with one more registry that nothing knows of. -/
def Session.spared (s : Session) :
    Session := { s with heap := (s.heap.allocate (.registry .empty)).2 }

theorem likeFresh_spared (project : Project) (environment : Environment) :
    (Session.fresh project environment).spared.LikeFresh 1 where
  loaded := rfl
  starting := rfl
  searchPath := rfl
  shared a hle _ := by
    have hsize := Heap.size_initial
    simp only [Session.spared, Session.fresh, Heap.allocate, Array.getElem?_push]
    rw [if_neg (by omega)]
  place := .inl rfl
  empty := rfl
  packaged a path h := by cases h

end FunctionManifest
