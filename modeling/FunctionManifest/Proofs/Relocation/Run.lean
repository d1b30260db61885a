import FunctionManifest.Proofs.Relocation.Yaml
import FunctionManifest.Proofs.Session.Run

/-!
# Runs elsewhere

Two sessions are alike if the second has the objects of the first at the new addresses. An action
mirrors another one if it keeps sessions alike and gives the same at the new addresses: what follows
shows this of each action of the language, from its parts.
-/

namespace FunctionManifest

variable {ρ : Relocation} {declaring : Prop}

/-- A number in what actions give is an address. -/
instance : Relocatable Nat := ⟨fun ρ a => ρ.address a⟩

@[simp] theorem moved_address (a : Nat) : moved ρ a = ρ.address a := rfl

namespace Heap

/-- The later heap has more objects in the same scopes. -/
structure Grows (heap later : Heap) : Prop where
  scopes : later.scopes = heap.scopes
  size : heap.cells.size ≤ later.cells.size

theorem Grows.refl (heap : Heap) : heap.Grows heap := ⟨rfl, Nat.le_refl _⟩

theorem Grows.trans {first second third : Heap} (h : first.Grows second) (h' : second.Grows third) :
    first.Grows third :=
  ⟨h'.scopes.trans h.scopes, h.size.trans h'.size⟩

theorem grows_allocate (heap : Heap) (cell : Cell) : heap.Grows (heap.allocate cell).2 :=
  ⟨rfl, by simp [allocate]⟩

theorem grows_replace (heap : Heap) (address : Nat) (cell : Cell) :
    heap.Grows (heap.replace address cell) :=
  ⟨rfl, by simp [replace]⟩

mutual

theorem grows_intern (heap : Heap) : (v : Value) → heap.Grows (heap.intern v).2
  | .list items => (grows_internItems heap items).trans (grows_allocate _ _)
  | .tuple [] => .refl heap
  | .tuple (v :: rest) => (grows_internItems heap (v :: rest)).trans (grows_allocate _ _)
  | .mapping entries => (grows_internEntries heap entries).trans (grows_allocate _ _)
  | .null | .bool _ | .int _ | .float _ | .text _ | .ref _ => .refl heap

theorem grows_internItems (heap : Heap) :
    (items : List Value) → heap.Grows (heap.internItems items).2
  | [] => .refl heap
  | v :: rest => (grows_intern heap v).trans (grows_internItems _ rest)

theorem grows_internEntries (heap : Heap) :
    (entries : Entries) → heap.Grows (heap.internEntries entries).2
  | [] => .refl heap
  | (k, v) :: rest =>
    ((grows_intern heap k).trans (grows_intern _ v)).trans (grows_internEntries _ rest)

end

end Heap

/-- The second session is like the first, with its objects at their new addresses. Unless all
objects are ordinary, declarations go to the same registry. What nothing reads may differ. -/
structure Session.Moved (ρ : Relocation) (declaring : Prop) (s s' : Session) : Prop where
  heap : s.heap.Moved ρ s'.heap
  current : declaring → s'.heap.scopes.current = moved ρ s.heap.scopes.current
  ordinary : declaring ∨ s.heap.IsOrdinary
  environment : s'.environment = s.environment
  project : s'.project = s.project
  loaded : s'.loaded = moved ρ s.loaded
  packages : ∀ a, Assoc.get? s'.packages (ρ.address a) = Assoc.get? s.packages a
  restPath : ∀ b, (∀ a, ρ.address a ≠ b) → Assoc.get? s'.packages b = ρ.restPath b
  starting : ∀ a, s'.starting.count (ρ.address a) = s.starting.count a
  searchPath : s'.searchPath = s.searchPath
  /-- Packages are modules that were added. -/
  packaged : ∀ a path, Assoc.get? s.packages a = some path → Heap.firstNative < a ∧
    a < s.heap.cells.size
  shared : Heap.firstNative < s.heap.cells.size

namespace Eval

variable {α β : Type} [Relocatable α] [Relocatable β]

/-- In the second session the second action gives what the first one gives in the first session, at
the new addresses, and it leaves the session so. -/
def MirrorsFrom (ρ : Relocation) (declaring : Prop) (s s' : Session) {α : Type} [Relocatable α]
    (action action' : Eval α) : Prop :=
  (action'.on s').1 = moved ρ (action.on s).1 ∧ (action.on s).2.Moved ρ declaring (action'.on s').2

/-- The second action mirrors the first one in every session. -/
def Mirrors (ρ : Relocation) (declaring : Prop) {α : Type} [Relocatable α]
    (action action' : Eval α) : Prop :=
  ∀ s s', s.Moved ρ declaring s' → MirrorsFrom ρ declaring s s' action action'

theorem mirrorsFrom_bind {s s' : Session} {action action' : Eval α} {f f' : α → Eval β}
    (h : MirrorsFrom ρ declaring s s' action action')
    (hf : ∀ a t t', action.on s = (.ok a, t) → t.Moved ρ declaring t' →
      MirrorsFrom ρ declaring t t' (f a) (f' (moved ρ a))) :
    MirrorsFrom ρ declaring s s' (action >>= f) (action' >>= f') := by
  obtain ⟨hresult, hleft⟩ := h
  unfold MirrorsFrom
  rw [on_bind, on_bind]
  cases hrun : action.on s with
  | mk result t =>
    cases hrun' : action'.on s' with
    | mk result' t' =>
      rw [hrun, hrun'] at hresult hleft
      dsimp only at hresult hleft
      subst hresult
      cases result with
      | ok a => exact hf a t t' hrun hleft
      | error failure => exact ⟨rfl, hleft⟩

theorem mirrors_bind {action action' : Eval α} {f f' : α → Eval β}
    (h : Mirrors ρ declaring action action')
    (hf : ∀ a, Mirrors ρ declaring (f a) (f' (moved ρ a))) :
    Mirrors ρ declaring (action >>= f) (action' >>= f') :=
  fun s s' hs => mirrorsFrom_bind (h s s' hs) fun a t t' _ ht => hf a t t' ht

theorem mirrors_pure {a a' : α} (h : a' = moved ρ a) : Mirrors ρ declaring (pure a) (pure a') := by
  subst h
  exact fun s s' hs => ⟨rfl, hs⟩

theorem mirrors_throw (failure : Failure) :
    Mirrors ρ declaring (throw failure : Eval α) (throw failure) :=
  fun _ _ hs => ⟨rfl, hs⟩

theorem mirrors_failed {failure failure' : Failure} (h : failure' = failure) :
    Mirrors ρ declaring (throw failure : Eval α) (throw failure') := by
  subst h
  exact mirrors_throw _

theorem mirrors_ofExcept {e e' : Except Failure α} (h : e' = moved ρ e) :
    Mirrors ρ declaring (MonadExcept.ofExcept e : Eval α) (MonadExcept.ofExcept e') := by
  subst h
  intro s s' hs
  unfold MirrorsFrom
  rw [on_ofExcept, on_ofExcept]
  exact ⟨rfl, hs⟩

theorem mirrorsFrom_map {s s' : Session} {action action' : Eval α} {f f' : α → β}
    (h : MirrorsFrom ρ declaring s s' action action')
    (hf : ∀ a, f' (moved ρ a) = moved ρ (f a)) :
    MirrorsFrom ρ declaring s s' (f <$> action) (f' <$> action') := by
  rw [← bind_pure_comp, ← bind_pure_comp]
  exact mirrorsFrom_bind h fun a t t' _ ht => ⟨congrArg Except.ok (hf a), ht⟩

theorem mirrors_map {action action' : Eval α} {f f' : α → β}
    (h : Mirrors ρ declaring action action')
    (hf : ∀ a, f' (moved ρ a) = moved ρ (f a)) :
    Mirrors ρ declaring (f <$> action) (f' <$> action') := by
  rw [← bind_pure_comp, ← bind_pure_comp]
  exact mirrors_bind h fun a => mirrors_pure (hf a)

theorem mirrors_ite {c : Prop} [Decidable c] {action action' other other' : Eval α}
    (h : Mirrors ρ declaring action action')
    (hother : Mirrors ρ declaring other other') :
    Mirrors ρ declaring (if c then action else other) (if c then action' else other') := by
  split
  · exact h
  · exact hother

theorem mirrors_heap_bind {f f' : Heap → Eval β}
    (h : ∀ heap heap', Heap.Moved ρ heap heap' → Mirrors ρ declaring (f heap) (f' heap')) :
    Mirrors ρ declaring (heap >>= f) (heap >>= f') := fun s s' hs => h _ _ hs.heap s s' hs

theorem mirrorsFrom_get_bind {s s' : Session} {f f' : Session → Eval β}
    (h : MirrorsFrom ρ declaring s s' (f s) (f' s')) :
    MirrorsFrom ρ declaring s s' (get >>= f) (get >>= f') := h

theorem mirrors_get_bind {f f' : Session → Eval β}
    (h : ∀ s s', s.Moved ρ declaring s' → Mirrors ρ declaring (f s) (f' s')) :
    Mirrors ρ declaring (get >>= f) (get >>= f') := fun s s' hs => h _ _ hs s s' hs

theorem mirrors_reading {read read' : Heap → Except Failure α}
    (h : ∀ heap heap', Heap.Moved ρ heap heap' → read' heap' = moved ρ (read heap)) :
    Mirrors ρ declaring (reading read) (reading read') :=
  mirrors_heap_bind fun heap heap' hheap => mirrors_ofExcept (h heap heap' hheap)

theorem mirrors_mapM {f f' : α → Eval β} (items : List α)
    (h : ∀ a, Mirrors ρ declaring (f a) (f' (moved ρ a))) :
    Mirrors ρ declaring (items.mapM f) ((moved ρ items).mapM f') := by
  induction items with
  | nil => exact mirrors_pure rfl
  | cons a rest ih =>
    rw [moved_cons, List.mapM_cons, List.mapM_cons]
    exact mirrors_bind (h a) fun b => mirrors_bind ih fun bs => mirrors_pure rfl

theorem mirrors_option_mapM {f f' : α → Eval β} (item : Option α)
    (h : ∀ a, Mirrors ρ declaring (f a) (f' (moved ρ a))) :
    Mirrors ρ declaring (item.mapM f) ((moved ρ item).mapM f') := by
  cases item with
  | none => exact mirrors_pure rfl
  | some a => exact mirrors_map (h a) fun b => rfl

theorem mirrors_foldlM {f f' : β → α → Eval β} (items : List α) (start : β)
    (h : ∀ b a, Mirrors ρ declaring (f b a) (f' (moved ρ b) (moved ρ a))) :
    Mirrors ρ declaring (items.foldlM f start) ((moved ρ items).foldlM f' (moved ρ start)) := by
  induction items generalizing start with
  | nil => exact mirrors_pure rfl
  | cons a rest ih =>
    rw [moved_cons, List.foldlM_cons, List.foldlM_cons]
    exact mirrors_bind (h start a) ih

instance : Plain (ForInStep PUnit) where

theorem mirrors_forIn {γ : Type} {body body' : γ → PUnit → Eval (ForInStep PUnit)} (items : List γ)
    (h : ∀ a, Mirrors ρ declaring (body a ⟨⟩) (body' a ⟨⟩)) :
    Mirrors ρ declaring (forIn items PUnit.unit body) (forIn items PUnit.unit body') := by
  induction items with
  | nil => exact mirrors_pure rfl
  | cons a rest ih =>
    rw [List.forIn_cons, List.forIn_cons]
    refine mirrors_bind (h a) fun step => ?_
    cases step with
    | done => exact mirrors_pure rfl
    | yield => exact ih

theorem mirrorsFrom_attempted {s s' : Session} {action action' : Eval α}
    (h : MirrorsFrom ρ declaring s s' action action') :
    MirrorsFrom ρ declaring s s' (attempted action) (attempted action') := by
  unfold MirrorsFrom
  rw [on_attempted, on_attempted]
  exact ⟨congrArg Except.ok h.1, h.2⟩

theorem mirrors_attempted {action action' : Eval α} (h : Mirrors ρ declaring action action') :
    Mirrors ρ declaring (attempted action) (attempted action') :=
      fun s s' hs => mirrorsFrom_attempted (h s s' hs)

theorem mirrors_ensuring {action action' : Eval α} {after after' : Eval Unit}
    (h : Mirrors ρ declaring action action')
    (hafter : Mirrors ρ declaring after after') :
    Mirrors ρ declaring (ensuring action after) (ensuring action' after') :=
  mirrors_bind (mirrors_attempted h) fun _ => mirrors_bind hafter fun _ => mirrors_ofExcept rfl

theorem mirrors_tryCatch {action action' : Eval α} {handle handle' : Failure → Eval α}
    (h : Mirrors ρ declaring action action')
    (hhandle : ∀ failure, Mirrors ρ declaring (handle failure) (handle' failure)) :
    Mirrors ρ declaring (tryCatch action handle) (tryCatch action' handle') := by
  intro s s' hs
  obtain ⟨hresult, hleft⟩ := h s s' hs
  unfold MirrorsFrom
  rw [on_tryCatch, on_tryCatch]
  cases hrun : action.on s with
  | mk result t =>
    cases hrun' : action'.on s' with
    | mk result' t' =>
      rw [hrun, hrun'] at hresult hleft
      dsimp only at hresult hleft
      subst hresult
      cases result with
      | ok a => exact ⟨rfl, hleft⟩
      | error failure => exact hhandle failure t t' hleft

/-! ## The heap -/

theorem movedHeaps {s s' : Session} (hs : s.Moved ρ declaring s') {later later' : Heap}
    (h : Heap.Moved ρ later later') (hgrows : s.heap.Grows later) (hgrows' : s'.heap.Grows later')
    (hordinary : declaring ∨ later.IsOrdinary) :
    Session.Moved ρ declaring { s with heap := later } { s' with heap := later' } where
  heap := h
  current hdeclaring := by
    rw [hgrows.scopes, hgrows'.scopes]
    exact hs.current hdeclaring
  ordinary := hordinary
  environment := hs.environment
  project := hs.project
  loaded := hs.loaded
  packages := hs.packages
  restPath := hs.restPath
  starting := hs.starting
  searchPath := hs.searchPath
  packaged a path ha :=
    ⟨(hs.packaged a path ha).1, Nat.lt_of_lt_of_le (hs.packaged a path ha).2 hgrows.size⟩
  shared := Nat.lt_of_lt_of_le hs.shared hgrows.size

theorem mirrors_allocateOr {cell cell' : Cell} (h : cell' = moved ρ cell)
    (hcell : declaring ∨ cell.IsOrdinary) :
    Mirrors ρ declaring (allocate cell) (allocate cell') := by
  subst h
  refine fun s s' hs => ⟨congrArg Except.ok (hs.heap.allocated cell),
    movedHeaps hs (hs.heap.allocate cell) (Heap.grows_allocate _ _) (Heap.grows_allocate _ _) ?_⟩
  exact hs.ordinary.elim .inl fun h => hcell.imp_right h.allocate

/-- A new object that was given no attributes. -/
theorem mirrors_allocate {cell cell' : Cell} (h : cell' = moved ρ cell)
    (hbare : cell.attributes = []) : Mirrors ρ declaring (allocate cell) (allocate cell') :=
  mirrors_allocateOr h (.inr (Cell.isOrdinary_of_bare hbare))

/-- A new object with whatever attributes. -/
theorem mirrors_allocateGiven {cell cell' : Cell} (h : cell' = moved ρ cell) :
    Mirrors ρ True (allocate cell) (allocate cell') :=
  mirrors_allocateOr h (.inl trivial)

theorem mirrors_intern {v v' : Value} (h : v' = moved ρ v) :
    Mirrors ρ declaring (intern v) (intern v') := by
  subst h
  intro s s' hs
  obtain ⟨hvalue, hheap⟩ := Heap.moved_intern s.heap s'.heap hs.heap v
  exact ⟨congrArg Except.ok hvalue,
    movedHeaps hs hheap (Heap.grows_intern _ _) (Heap.grows_intern _ _)
    (hs.ordinary.imp_right (·.intern v))⟩

theorem mirrors_newUndefined :
    Mirrors ρ declaring (onHeap (·.newUndefined)) (onHeap (·.newUndefined)) := by
  intro s s' hs
  obtain ⟨hvalue, hheap⟩ := hs.heap.newUndefined
  exact ⟨congrArg Except.ok hvalue,
    movedHeaps hs hheap ⟨rfl, Nat.le_refl _⟩ ⟨rfl, Nat.le_refl _⟩ hs.ordinary⟩

theorem mirrorsFrom_replace {s s' : Session} (hs : s.Moved ρ declaring s') (a : Nat) {cell : Cell}
    (hcell : declaring ∨ cell.IsOrdinary) :
    MirrorsFrom ρ declaring s s' (replace a cell) (replace (ρ.address a) (moved ρ cell)) := by
  refine ⟨rfl,
    movedHeaps hs (hs.heap.replace a cell) (Heap.grows_replace _ _ _) (Heap.grows_replace _ _ _) ?_⟩
  exact hs.ordinary.elim .inl fun h => hcell.imp_right (h.replace a)

theorem mirrors_replace {cell cell' : Cell} (a : Nat) (h : cell' = moved ρ cell) :
    Mirrors ρ True (replace a cell) (replace (ρ.address a) cell') := by
  subst h
  exact fun s s' hs => mirrorsFrom_replace hs a (.inl trivial)

theorem mirrors_cell? (v : Value) : Mirrors ρ declaring (cell? v) (cell? (moved ρ v)) :=
  mirrors_heap_bind fun _ _ _ => mirrors_pure (Heap.moved_cell? v)

theorem mirrors_log (level : LogLevel) (logger : String) (text : Text) :
    Mirrors ρ declaring (log level logger text) (log level logger text) :=
  fun _ _ hs => ⟨rfl, { hs with heap := hs.heap }⟩

theorem mirrors_currentRegistry : Mirrors ρ True currentRegistry currentRegistry :=
  fun _ _ hs => ⟨congrArg Except.ok (hs.current trivial), hs⟩

end Eval

end FunctionManifest
