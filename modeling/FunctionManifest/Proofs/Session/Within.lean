import FunctionManifest.Language.Access
import FunctionManifest.Proofs.Session.Run
import Mathlib.Order.Defs.Unbundled

/-!
# What actions do to a session

A relation between sessions that holds of every small step holds of every action made of such steps.
-/

namespace FunctionManifest

namespace Eval

variable {α β : Type} {R : Session → Session → Prop}

/-- However the action ends, what it leaves is related to what it began with. -/
def Within (R : Session → Session → Prop) (action : Eval α) : Prop := ∀ s, R s (action.on s).2

section

variable [IsPreorder Session R]

/-- An action that leaves the session as it is. -/
theorem within_of_kept {action : Eval α} (h : ∀ s, (action.on s).2 = s) : Within R action := by
  intro s
  rw [h s]
  exact refl s

@[grind .] theorem within_pure (a : α) : Within R (pure a : Eval α) := fun s => refl s

@[grind .] theorem within_throw (failure : Failure) : Within R (throw failure : Eval α) :=
  fun s => refl s

@[grind .] theorem within_get : Within R (get : Eval Session) := fun s => refl s

@[grind .] theorem within_ofExcept (e : Except Failure α) :
    Within R (MonadExcept.ofExcept e : Eval α) :=
  within_of_kept fun s => by simp

@[grind .] theorem within_heap : Within R heap := fun s => refl s

@[grind .] theorem within_reading (read : Heap → Except Failure α) : Within R (reading read) :=
  within_of_kept fun s => by simp

@[grind .] theorem within_cell? (v : Value) : Within R (cell? v) := fun s => refl s

@[grind .] theorem within_currentRegistry : Within R currentRegistry := fun s => refl s

/-- What comes next is only asked about the session that is left. -/
theorem related_bind {action : Eval α} {f : α → Eval β} {s : Session} (h : R s (action.on s).2)
    (hf : ∀ a t, action.on s = (.ok a, t) → R t ((f a).on t).2) :
    R s ((action >>= f).on s).2 := by
  rw [on_bind]
  cases hrun : action.on s with
  | mk result t =>
    rw [hrun] at h
    cases result with
    | ok a => exact trans_of R h (hf a t hrun)
    | error failure => exact h

@[grind ←] theorem within_bind {action : Eval α} {f : α → Eval β} (h : Within R action)
    (hf : ∀ a, Within R (f a)) : Within R (action >>= f) := fun s =>
  related_bind (h s) fun a t _ => hf a t

@[grind ←] theorem within_map {action : Eval α} (f : α → β) (h : Within R action) :
    Within R (f <$> action) := by
  rw [← bind_pure_comp]
  exact within_bind h fun a => within_pure _

@[grind ←] theorem within_tryCatch {action : Eval α} {handle : Failure → Eval α}
    (h : Within R action) (hhandle : ∀ failure, Within R (handle failure)) :
    Within R (tryCatch action handle) := by
  intro s
  have hfirst := h s
  rw [on_tryCatch]
  cases hrun : action.on s with
  | mk result t =>
    rw [hrun] at hfirst
    cases result with
    | ok a => exact hfirst
    | error failure => exact trans_of R hfirst (hhandle failure t)

omit [IsPreorder Session R] in
@[grind ←] theorem within_attempted {action : Eval α} (h : Within R action) :
    Within R (attempted action) := by
  intro s
  rw [on_attempted]
  exact h s

@[grind ←] theorem within_ensuring {action : Eval α} {after : Eval Unit} (h : Within R action)
    (hafter : Within R after) : Within R (ensuring action after) := by
  unfold ensuring
  grind

/-! ## Many actions -/

@[grind ←] theorem within_mapM {f : α → Eval β} {items : List α} (h : ∀ a, Within R (f a)) :
    Within R (items.mapM f) := by
  induction items with
  | nil => exact within_pure []
  | cons item rest ih =>
    rw [List.mapM_cons]
    grind

@[grind ←] theorem within_option_mapM {f : α → Eval β} {item : Option α}
    (h : ∀ a, Within R (f a)) : Within R (item.mapM f) := by
  cases item with
  | none => exact within_pure none
  | some a => exact within_map some (h a)

@[grind ←] theorem within_foldlM {f : β → α → Eval β} {start : β} {items : List α}
    (h : ∀ b a, Within R (f b a)) : Within R (items.foldlM f start) := by
  induction items generalizing start with
  | nil => exact within_pure start
  | cons item rest ih =>
    rw [List.foldlM_cons]
    exact within_bind (h start item) fun b => ih

@[grind ←] theorem within_forIn {f : α → β → Eval (ForInStep β)} {start : β} {items : List α}
    (h : ∀ a b, Within R (f a b)) : Within R (forIn items start f) := by
  induction items generalizing start with
  | nil => exact within_pure start
  | cons item rest ih =>
    rw [List.forIn_cons]
    refine within_bind (h item start) fun step => ?_
    cases step with
    | done b => exact within_pure b
    | yield b => exact ih

end

end Eval

/-! ## Small steps -/

/-- The session once a registry was changed, by what was declared or by clearing it. -/
def Session.changed (s : Session) (address : Nat) (r : Registry Value)
    (declared : Option Declaration) : Session :=
  { s with
    heap := s.heap.replace address (.registry r)
    changes := s.changes ++ [⟨address, s.heap.scopes.current, declared⟩] }

/-- What a kept method would empty if it was called. -/
@[grind] def Cell.emptied? : Cell → Option Value
  | .method (.removeAll _) self => self
  | _ => none

/-- What a kept method would empty is there, or it is what declarations go to. -/
def Session.MayKeep (s : Session) (cell : Cell) : Prop :=
  ∀ v, cell.emptied? = some v → v = s.heap.scopes.current ∨ ∃ there, s.heap.cell? v = some there

/-- The relation holds of every step that a call without arguments can make, as far as such a call
can go: a collection is only emptied by a method that is kept, and of those methods it makes none but
for the current registry. -/
class AskingFrame (R : Session → Session → Prop) : Prop extends IsPreorder Session R where
  allocates : ∀ s cell, (∀ v, cell.emptied? = some v → v = s.heap.scopes.current) →
    R s { s with heap := (s.heap.allocate cell).2 }
  counts : ∀ s, R s { s with heap := s.heap.newUndefined.2 }
  logs : ∀ s entry, R s { s with log := s.log ++ [entry] }
  empties : ∀ s address items,
    (∃ v cell, s.heap.cell? v = some cell ∧ cell.emptied? = some (.ref address)) →
    s.heap.cells[address]? = some (.list items) →
    R s { s with heap := s.heap.replace address (.list []) }
  unmaps : ∀ s address entries,
    (∃ v cell, s.heap.cell? v = some cell ∧ cell.emptied? = some (.ref address)) →
    s.heap.cells[address]? = some (.mapping entries) →
    R s { s with heap := s.heap.replace address (.mapping []) }
  clears : ∀ s address r, s.heap.cells[address]? = some (.registry r) →
    R s (s.changed address r.clear none)

/-- The relation holds of every step that a call can make: new objects, changes of collections and
registries, and lines of the log. -/
class Frame (R : Session → Session → Prop) : Prop extends IsPreorder Session R where
  allocates : ∀ s cell, s.MayKeep cell → R s { s with heap := (s.heap.allocate cell).2 }
  counts : ∀ s, R s { s with heap := s.heap.newUndefined.2 }
  logs : ∀ s entry, R s { s with log := s.log ++ [entry] }
  refills : ∀ s address items items', s.heap.cells[address]? = some (.list items) →
    R s { s with heap := s.heap.replace address (.list items') }
  remaps : ∀ s address entries entries', s.heap.cells[address]? = some (.mapping entries) →
    R s { s with heap := s.heap.replace address (.mapping entries') }
  declares : ∀ s address r r' v, s.heap.cells[address]? = some (.registry r) →
    r.register s.heap.sameName v = .ok r' →
    R s (s.changed address r' (some ⟨v, s.heap.declaredName? v⟩))
  clears : ∀ s address r, s.heap.cells[address]? = some (.registry r) →
    R s (s.changed address r.clear none)

/-- The relation holds of every step that a call without arguments can make: new objects,
collections and registries that are emptied, and lines of the log. -/
class QuietFrame (R : Session → Session → Prop) : Prop extends IsPreorder Session R where
  allocates : ∀ s cell, s.MayKeep cell → R s { s with heap := (s.heap.allocate cell).2 }
  counts : ∀ s, R s { s with heap := s.heap.newUndefined.2 }
  logs : ∀ s entry, R s { s with log := s.log ++ [entry] }
  empties : ∀ s address items, s.heap.cells[address]? = some (.list items) →
    R s { s with heap := s.heap.replace address (.list []) }
  unmaps : ∀ s address entries, s.heap.cells[address]? = some (.mapping entries) →
    R s { s with heap := s.heap.replace address (.mapping []) }
  clears : ∀ s address r, s.heap.cells[address]? = some (.registry r) →
    R s (s.changed address r.clear none)

instance (priority := low) {R : Session → Session → Prop} [Frame R] : QuietFrame R where
  allocates := Frame.allocates
  counts := Frame.counts
  logs := Frame.logs
  empties s address items h := Frame.refills s address items [] h
  unmaps s address entries h := Frame.remaps s address entries [] h
  clears := Frame.clears

instance (priority := low) {R : Session → Session → Prop} [QuietFrame R] : AskingFrame R where
  allocates s cell h := QuietFrame.allocates s cell fun v hv => .inl (h v hv)
  counts := QuietFrame.counts
  logs := QuietFrame.logs
  empties s address items _ := QuietFrame.empties s address items
  unmaps s address entries _ := QuietFrame.unmaps s address entries
  clears := QuietFrame.clears

/-- The relation also holds of setting attributes. -/
class SettingFrame (R : Session → Session → Prop) : Prop extends Frame R where
  sets : ∀ s address cell cell' name v, s.heap.cells[address]? = some cell →
    cell.with s.heap name v = .ok cell' →
    R s { s with
      heap := s.heap.replace address cell'
      settings := s.settings ++ [(address, name)] }

/-- What calls without arguments can make of a session. -/
def Session.Asked (s t : Session) : Prop :=
  ∀ (R : Session → Session → Prop) [AskingFrame R], R s t

instance : AskingFrame Session.Asked where
  refl s R _ := refl_of R s
  trans _ _ _ h h' R _ := trans_of R (h R) (h' R)
  allocates s cell h _ _ := AskingFrame.allocates s cell h
  counts s _ _ := AskingFrame.counts s
  logs s entry _ _ := AskingFrame.logs s entry
  empties s address items h hcell _ _ := AskingFrame.empties s address items h hcell
  unmaps s address entries h hcell _ _ := AskingFrame.unmaps s address entries h hcell
  clears s address r h _ _ := AskingFrame.clears s address r h

theorem Session.Asked.size_le {s t : Session} (h : s.Asked t) :
    s.heap.cells.size ≤ t.heap.cells.size := by
  have : AskingFrame fun s t : Session => s.heap.cells.size ≤ t.heap.cells.size :=
    { refl := fun s => Nat.le_refl _
      trans := fun _ _ _ => Nat.le_trans
      allocates := fun s cell _ => by simp [Heap.allocate]
      counts := fun s => Nat.le_refl _
      logs := fun s entry => Nat.le_refl _
      empties := fun s address items _ _ => by simp [Heap.replace]
      unmaps := fun s address entries _ _ => by simp [Heap.replace]
      clears := fun s address r _ => by simp [Session.changed, Heap.replace] }
  exact h fun s t => s.heap.cells.size ≤ t.heap.cells.size

namespace Eval

section

variable {R : Session → Session → Prop} [AskingFrame R]

theorem allocated (s : Session) {cell : Cell} (h : cell.emptied? = none) :
    R s { s with heap := (s.heap.allocate cell).2 } :=
  AskingFrame.allocates s cell fun v hv => by simp [h] at hv

@[grind ←] theorem within_allocate_unemptying {cell : Cell} (h : cell.emptied? = none) :
    Within R (allocate cell) := fun s => allocated s h

@[grind .] theorem within_log (level : LogLevel) (logger : String) (text : Text) :
    Within R (log level logger text) := fun s => AskingFrame.logs s _

@[grind .] theorem within_newUndefined : Within R (onHeap (·.newUndefined)) := fun s =>
  AskingFrame.counts s

mutual

theorem interned (s : Session) : (v : Value) → R s { s with heap := (s.heap.intern v).2 }
  | .list items => by
    have hitems := internedItems s items
    exact trans_of R hitems (allocated _ rfl)
  | .tuple [] => refl_of R s
  | .tuple (v :: rest) => by
    have hitems := internedItems s (v :: rest)
    exact trans_of R hitems (allocated _ rfl)
  | .mapping entries => by
    have hentries := internedEntries s entries
    exact trans_of R hentries (allocated _ rfl)
  | .null | .bool _ | .int _ | .float _ | .text _ | .ref _ => refl_of R s

theorem internedItems (s : Session) :
    (items : List Value) → R s { s with heap := (s.heap.internItems items).2 }
  | [] => refl_of R s
  | v :: rest => by
    have hfirst := interned s v
    exact trans_of R hfirst (internedItems { s with heap := (s.heap.intern v).2 } rest)

theorem internedEntries (s : Session) :
    (entries : Entries) → R s { s with heap := (s.heap.internEntries entries).2 }
  | [] => refl_of R s
  | (k, v) :: rest => by
    have hkey := interned s k
    have hvalue := interned { s with heap := (s.heap.intern k).2 } v
    exact trans_of R (trans_of R hkey hvalue)
      (internedEntries { s with heap := ((s.heap.intern k).2.intern v).2 } rest)

end

@[grind .] theorem within_intern (v : Value) : Within R (intern v) := fun s => interned s v

@[grind .] theorem within_ofReading (reading : Reading) : Within R (ofReading reading) := by
  unfold ofReading
  grind

end

end Eval

end FunctionManifest
