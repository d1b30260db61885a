import FunctionManifest.Session

/-!
# Running actions

An action run on a session gives a result, which may be a failure, and the session that it leaves.
-/

namespace FunctionManifest.Eval

variable {α β : Type}

/-- The result of an action on a session, and the session afterwards. -/
def on (action : Eval α) (s : Session) : Except Failure α × Session := action.run.run s

/-- What comes next acts on the session that was left, unless there was a failure. -/
def next (before : Except Failure α × Session) (f : α → Eval β) : Except Failure β × Session :=
  match before with
  | (.ok a, s) => (f a).on s
  | (.error failure, s) => (.error failure, s)

@[simp] theorem next_ok (a : α) (s : Session) (f : α → Eval β) : next (.ok a, s) f = (f a).on s :=
  rfl

@[simp] theorem next_error (failure : Failure) (s : Session) (f : α → Eval β) :
    next (.error failure, s) f = (.error failure, s) := rfl

/-- An action that succeeds has steps that succeed. -/
theorem next_eq_ok_iff {before : Except Failure α × Session} {f : α → Eval β} {b : β}
    {t : Session} :
    next before f = (.ok b, t) ↔ ∃ a s, before = (.ok a, s) ∧ (f a).on s = (.ok b, t) := by
  obtain ⟨result, s⟩ := before
  cases result with
  | ok a => simp [and_assoc, eq_comm]
  | error failure => simp

theorem eq_of_isOk {result : Except Failure α × Session} (h : result.1.isOk = true) (a : α) :
    result = (.ok (result.1.toOption.getD a), result.2) := by
  obtain ⟨_ | _, s⟩ := result
  · cases h
  · rfl

@[simp] theorem on_pure (a : α) (s : Session) : (pure a : Eval α).on s = (.ok a, s) := rfl

@[simp] theorem on_bind (m : Eval α) (f : α → Eval β) (s : Session) :
    (m >>= f).on s = next (m.on s) f := by
  unfold on next
  simp only [bind, ExceptT.run, ExceptT.bind, ExceptT.mk, StateT.run, StateT.bind]
  cases m s with
  | mk result t => cases result <;> rfl

@[simp] theorem on_map (g : α → β) (m : Eval α) (s : Session) :
    (g <$> m).on s = next (m.on s) fun a => pure (g a) := by
  rw [← bind_pure_comp, on_bind]

@[simp] theorem on_throw (failure : Failure) (s : Session) :
    (throw failure : Eval α).on s = (.error failure, s) := rfl

@[simp] theorem on_get (s : Session) : (get : Eval Session).on s = (.ok s, s) := rfl

@[simp] theorem on_set (s t : Session) : (set t : Eval Unit).on s = (.ok (), t) := rfl

@[simp] theorem on_modify (f : Session → Session) (s : Session) :
    (modify f : Eval Unit).on s = (.ok (), f s) := rfl

@[simp] theorem on_ofExcept (e : Except Failure α) (s : Session) :
    (MonadExcept.ofExcept e : Eval α).on s = (e, s) := by
  cases e <;> rfl

/-- A failure is handled on the session that was left. -/
def rescue (before : Except Failure α × Session) (handle : Failure → Eval α) :
    Except Failure α × Session :=
  match before with
  | (.ok a, s) => (.ok a, s)
  | (.error failure, s) => (handle failure).on s

@[simp] theorem rescue_ok (a : α) (s : Session) (handle : Failure → Eval α) :
    rescue (.ok a, s) handle = (.ok a, s) := rfl

@[simp] theorem rescue_error (failure : Failure) (s : Session) (handle : Failure → Eval α) :
    rescue (.error failure, s) handle = (handle failure).on s := rfl

@[simp] theorem on_tryCatch (m : Eval α) (handle : Failure → Eval α) (s : Session) :
    (tryCatch m handle).on s = rescue (m.on s) handle := by
  change (ExceptT.tryCatch m handle).run s = _
  unfold on ExceptT.tryCatch rescue
  simp only [ExceptT.run, ExceptT.mk, bind, StateT.run, StateT.bind]
  cases m s with
  | mk result t => cases result <;> rfl

@[simp] theorem on_attempted (action : Eval α) (s : Session) :
    (attempted action).on s = (.ok (action.on s).1, (action.on s).2) := rfl

/-- However an action ended, its result stays, unless what comes after it fails. -/
@[simp] theorem on_ensuring (action : Eval α) (after : Eval Unit) (s : Session) :
    (ensuring action after).on s =
      next (after.on (action.on s).2) fun _ => MonadExcept.ofExcept (action.on s).1 := by
  simp [ensuring]

/-! ## Success -/

/-- The action cannot fail. -/
def Succeeds (action : Eval α) : Prop := ∀ s, ∃ a t, action.on s = (.ok a, t)

theorem Succeeds.bind {action : Eval α} {f : α → Eval β} (h : Succeeds action)
    (hf : ∀ a, Succeeds (f a)) : Succeeds (action >>= f) := by
  intro s
  obtain ⟨a, t, ha⟩ := h s
  rw [on_bind, ha, next_ok]
  exact hf a t

theorem Succeeds.mapM {f : α → Eval β} {items : List α} (h : ∀ a, Succeeds (f a)) :
    Succeeds (items.mapM f) := by
  induction items with
  | nil => exact fun s => ⟨[], s, rfl⟩
  | cons item rest ih =>
    rw [List.mapM_cons]
    exact (h item).bind fun b => ih.bind fun bs s => ⟨b :: bs, s, rfl⟩

/-! ## The heap -/

@[simp] theorem on_heap (s : Session) : heap.on s = (.ok s.heap, s) := rfl

@[simp] theorem on_modifyHeap (change : Heap → Heap) (s : Session) :
    (modifyHeap change).on s = (.ok (), { s with heap := change s.heap }) := rfl

@[simp] theorem on_onHeap (change : Heap → α × Heap) (s : Session) :
    (onHeap change).on s = (.ok (change s.heap).1, { s with heap := (change s.heap).2 }) := rfl

@[simp] theorem on_reading (read : Heap → Except Failure α) (s : Session) :
    (reading read).on s = (read s.heap, s) := by
  simp [reading]

@[simp] theorem on_allocate (cell : Cell) (s : Session) :
    (allocate cell).on s =
      (.ok (s.heap.allocate cell).1, { s with heap := (s.heap.allocate cell).2 }) := rfl

@[simp] theorem on_intern (v : Value) (s : Session) :
    (intern v).on s = (.ok (s.heap.intern v).1, { s with heap := (s.heap.intern v).2 }) := rfl

@[simp] theorem on_cell? (v : Value) (s : Session) : (cell? v).on s = (.ok (s.heap.cell? v), s) :=
  rfl

@[simp] theorem on_replace (address : Nat) (cell : Cell) (s : Session) :
    (replace address cell).on s = (.ok (), { s with heap := s.heap.replace address cell }) := rfl

@[simp] theorem on_log (level : LogLevel) (logger : String) (text : Text) (s : Session) :
    (log level logger text).on s =
      (.ok (), { s with log := s.log ++ [⟨level, logger, text⟩] }) := rfl

end FunctionManifest.Eval
