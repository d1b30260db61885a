import FunctionManifest.Proofs.Relocation.Run

/-!
# Asking objects

Objects are asked for their texts and their attributes. Where a text is made of an object that is
asked, the callers have to mirror each other.
-/

namespace FunctionManifest

open Eval

variable {ρ : Relocation} {declaring : Prop}

/-! ## Rendering -/

/-- The second asking answers what the first one does. -/
structure Asking.Mirrors (ρ : Relocation) (declaring : Prop) (ask ask' : Asking Eval) : Prop where
  name : ∀ v, Eval.Mirrors ρ declaring (ask.name v) (ask'.name (moved ρ v))
  render : ∀ v, Eval.Mirrors ρ declaring (ask.render v) (ask'.render (moved ρ v))
  printed : ∀ v, Eval.Mirrors ρ declaring (ask.printed v) (ask'.printed (moved ρ v))
  type : ∀ v, Eval.Mirrors ρ declaring (ask.type v) (ask'.type (moved ρ v))

section

variable {ask ask' : Asking Eval}

section

variable (h : ask.Mirrors ρ declaring ask')

include h

theorem mirrors_asking_text (v : Value) :
    Mirrors ρ declaring (ask.text v) (ask'.text (moved ρ v)) := by
  have hprinted := h.printed v
  cases v with
  | text t => exact mirrors_pure rfl
  | _ => exact hprinted

theorem mirrors_joinable (index : Nat) (items : List Value) :
    Mirrors ρ declaring (ask.joinable index items) (ask'.joinable index (moved ρ items)) := by
  induction items generalizing index with
  | nil => exact mirrors_pure rfl
  | cons v rest ih =>
    have htype :
        Mirrors ρ declaring (ask.type v >>= fun type =>
        (throw (.notText index type) : Eval (List Text)))
        (ask'.type (moved ρ v) >>= fun type => throw (.notText index type)) :=
      mirrors_bind (h.type v) fun type => mirrors_throw _
    rw [moved_cons]
    cases v with
    | text t => exact mirrors_map (ih _) fun _ => rfl
    | _ => exact htype

end

mutual

theorem mirrors_expression (h : ask.Mirrors ρ declaring ask') :
    (e : Expression) → Mirrors ρ declaring (e.render ask) ((moved ρ e).render ask')
  | .base => mirrors_throw _
  | .param p => h.name p
  | .foreign v => h.render v
  | .endless => mirrors_throw _
  | .compare op left right => by
    have hleft := mirrors_expression h left
    have hright := mirrors_operand h right
    rw [moved_expression_compare]
    unfold Expression.render
    exact mirrors_bind hleft fun v => mirrors_bind (mirrors_asking_text h v) fun _ =>
      mirrors_bind hright fun w => mirrors_map (mirrors_asking_text h w) fun _ => rfl
  | .ifElse test ifTrue ifFalse => by
    have htest := mirrors_expression h test
    have hifTrue := mirrors_operand h ifTrue
    have hifFalse := mirrors_operand h ifFalse
    rw [moved_expression_ifElse]
    unfold Expression.render
    exact mirrors_bind htest fun u => mirrors_bind (mirrors_asking_text h u) fun _ =>
      mirrors_bind hifTrue fun v => mirrors_bind (mirrors_asking_text h v) fun _ =>
      mirrors_bind hifFalse fun w => mirrors_map (mirrors_asking_text h w) fun _ => rfl

theorem mirrors_operand (h : ask.Mirrors ρ declaring ask') :
    (o : Operand) → Mirrors ρ declaring (o.render ask) ((moved ρ o).render ask')
  | .expression e => mirrors_expression h e
  | .param p => h.name p
  | .null | .bool _ | .text _ => mirrors_pure rfl
  | .int n => mirrors_map (mirrors_ofExcept (moved_plainResult _).symm) fun _ => rfl
  | .list items => by
    have hitems := mirrors_operands h items
    rw [moved_operand_list]
    unfold Operand.render
    exact mirrors_bind hitems fun rendered =>
      mirrors_map (mirrors_joinable h 0 rendered) fun texts => by simp
  | .tuple items => by
    have hitems := mirrors_operands h items
    rw [moved_operand_tuple]
    unfold Operand.render
    exact mirrors_bind hitems fun rendered =>
      mirrors_map (mirrors_joinable h 0 rendered) fun texts => by simp
  | .other v => mirrors_map (h.printed v) fun _ => rfl
  | .endless => mirrors_throw _

theorem mirrors_operands (h : ask.Mirrors ρ declaring ask') : (items : List Operand) →
    Mirrors ρ declaring (renderOperands ask items) (renderOperands ask' (moved ρ items))
  | [] => mirrors_pure rfl
  | item :: rest => by
    have hitem := mirrors_operand h item
    have hrest := mirrors_operands h rest
    rw [moved_cons]
    unfold renderOperands
    exact mirrors_bind hitem fun v => mirrors_map hrest fun rest => rfl

end

theorem mirrors_deferredText (h : ask.Mirrors ρ declaring ask') (e : Expression) :
    Mirrors ρ declaring (e.deferredText ask) ((moved ρ e).deferredText ask') :=
  mirrors_bind (mirrors_expression h e) fun v => mirrors_map (mirrors_asking_text h v) fun _ => rfl

mutual

theorem mirrors_setting (h : ask.Mirrors ρ declaring ask') : (setting : Setting) →
    Mirrors ρ declaring (setting.wire ask) ((moved ρ setting).wire ask')
  | .expression e => by
    rw [moved_setting_expression]
    unfold Setting.wire
    exact mirrors_map (mirrors_deferredText h e) fun _ => rfl
  | .param p => by
    rw [moved_setting_param]
    unfold Setting.wire
    exact mirrors_map (mirrors_deferredText h (.param p)) fun _ => rfl
  | .reset | .pattern _ | .regex _ | .kept _ => mirrors_pure rfl
  | .mapping entries => by
    rw [moved_setting_mapping]
    unfold Setting.wire
    exact mirrors_map (mirrors_wireEntries h entries) fun wire => (moved_valueMapping wire).symm
  | .list items => by
    rw [moved_setting_list]
    unfold Setting.wire
    exact mirrors_map (mirrors_wireItems h items) fun wire => (moved_valueList wire).symm
  | .tuple items => by
    rw [moved_setting_tuple]
    unfold Setting.wire
    exact mirrors_map (mirrors_wireItems h items) fun wire => (moved_valueList wire).symm
  | .endless => mirrors_throw _

theorem mirrors_wireItems (h : ask.Mirrors ρ declaring ask') : (items : List Setting) →
    Mirrors ρ declaring (wireItems ask items) (wireItems ask' (moved ρ items))
  | [] => mirrors_pure rfl
  | item :: rest => by
    have hitem := mirrors_setting h item
    have hrest := mirrors_wireItems h rest
    rw [moved_cons]
    unfold wireItems
    exact mirrors_bind hitem fun v => mirrors_map hrest fun rest => rfl

theorem mirrors_wireEntries (h : ask.Mirrors ρ declaring ask') :
    (entries : List (Value × Setting)) →
    Mirrors ρ declaring (wireEntries ask entries) (wireEntries ask' (moved ρ entries))
  | [] => mirrors_pure rfl
  | (key, item) :: rest => by
    have hitem := mirrors_setting h item
    have hrest := mirrors_wireEntries h rest
    rw [moved_cons, moved_pair]
    unfold wireEntries
    exact mirrors_bind hitem fun v => mirrors_map hrest fun rest => rfl

end

end

/-! ## Attributes -/

theorem mirrors_isStarting (v : Value) :
    Mirrors ρ declaring (isStarting v) (isStarting (moved ρ v)) := by
  cases v with
  | ref a =>
    refine mirrors_get_bind fun s s' hs => mirrors_pure ?_
    rw [moved_plain, Bool.eq_iff_iff, List.contains_iff_mem, List.contains_iff_mem,
      ← List.count_pos_iff,
      ← List.count_pos_iff, hs.starting]
  | _ => exact mirrors_pure rfl

theorem mirrors_missing (v : Value) (name : Text) :
    Mirrors ρ declaring (missing v name) (missing (moved ρ v) name) := by
  unfold missing
  refine mirrors_heap_bind fun heap heap' _ => ?_
  rw [Heap.moved_missing]
  cases heap.missing v name with
  | noMember module name =>
    cases module with
    | none => exact mirrors_pure rfl
    | some module =>
      refine mirrors_bind (mirrors_isStarting v) fun starting => ?_
      rw [moved_plain]
      cases starting <;> exact mirrors_pure rfl
  | _ => exact mirrors_pure rfl

theorem Cell.moved_method? (cell : Cell) (v : Value) (name : Text) :
    (moved ρ cell).method? (moved ρ v) name = moved ρ (cell.method? v name) := by
  have hmethods :
      (Method.named? (moved ρ cell).methods name).map (fun m => Cell.method m (some (moved ρ v))) =
      moved ρ ((Method.named? cell.methods name).map fun m => .method m (some v)) := by
    rw [moved_methods]
    cases Method.named? cell.methods name <;> simp
  cases cell with
  | builtin b =>
    simp only [moved_cell_builtin, method?]
    cases Method.named? (Method.ofConstructor b) name with
    | none => rfl
    | some m =>
      simp only [Option.map_some, moved_some, moved_cell_method]
      split <;> rfl
  | _ => exact hmethods

theorem Cell.bind_method? {cell? : Option Cell} {v : Value} {name : Text} {method : Cell}
    (h : cell?.bind (·.method? v name) = some method) : ∃ m self, method = .method m self := by
  obtain ⟨cell, -, h⟩ := Option.bind_eq_some_iff.mp h
  unfold Cell.method? at h
  split at h
  all_goals
    obtain ⟨m, -, rfl⟩ := Option.map_eq_some_iff.mp h
    exact ⟨m, _, rfl⟩

theorem mirrors_ready? (v : Value) (name : Text) :
    Mirrors ρ declaring (ready? v name) (ready? (moved ρ v) name) := by
  unfold ready?
  refine mirrors_heap_bind fun heap heap' _ => ?_
  rw [Heap.moved_stored?, Heap.moved_cell?,
    moved_option_bind _ fun cell => cell.moved_method? v name]
  cases heap.stored? v name with
  | some found => exact mirrors_pure rfl
  | none =>
    cases hmethod : (heap.cell? v).bind (·.method? v name) with
    | none => exact mirrors_pure rfl
    | some method =>
      obtain ⟨m, self, rfl⟩ := Cell.bind_method? hmethod
      exact mirrors_map (mirrors_allocate rfl rfl) fun _ => rfl

/-- By the second caller objects do what they are asked to do by the first one. -/
def Caller.Mirrors (ρ : Relocation) (declaring : Prop) (call call' : Caller) : Prop :=
  ∀ v, ∀ name ∈ askedNames, ∀ positional, Eval.Mirrors ρ declaring
    (callAttribute call v (Text.ofString name) positional)
    (callAttribute call' (moved ρ v) (Text.ofString name) (moved ρ positional))

section

variable {call call' : Caller} (h : Caller.Mirrors ρ declaring call call')

include h

theorem mirrors_callAttribute (v : Value) (name : String) (hname : name ∈ askedNames)
    (positional : List Value) :
    Mirrors ρ declaring (callAttribute call v name positional)
      (callAttribute call' (moved ρ v) name (moved ρ positional)) := h v name hname positional

theorem mirrors_askingWith {print print' : Value → Eval Text}
    (hprint : ∀ v, Mirrors ρ declaring (print v) (print' (moved ρ v))) :
    (askingWith call print).Mirrors ρ declaring (askingWith call' print') where
  name v := mirrors_reading fun _ _ _ => Heap.moved_nameOf v
  render v := mirrors_callAttribute h v "render" (by decide) []
  printed := hprint
  type v := mirrors_heap_bind fun _ _ _ => mirrors_pure (Heap.moved_type v)

theorem mirrors_printedFrom (fuel : Nat) (v : Value) :
    Mirrors ρ declaring (printedFrom call fuel v) (printedFrom call' fuel (moved ρ v)) := by
  induction fuel generalizing v with
  | zero => exact mirrors_throw _
  | succ fuel ih =>
    have hshown : ∀ v : Value,
        Mirrors ρ declaring (reading (·.shown v)) (reading (·.shown (moved ρ v))) :=
      fun v => mirrors_reading fun _ _ _ => (Heap.moved_shown v).trans (moved_plainResult _).symm
    have hv := hshown v
    unfold printedFrom
    refine mirrors_heap_bind fun heap heap' _ => ?_
    rw [Heap.moved_cell?]
    cases v with
    | text t => exact mirrors_pure rfl
    | ref a =>
      cases heap.cell? (.ref a) with
      | none => exact hv
      | some cell =>
        cases cell with
        | formula f =>
          have hexpression :
              heap'.expression (moved ρ (.ref a)) = moved ρ (heap.expression (.ref a)) :=
            Heap.moved_expression _
          have hrender := mirrors_expression (mirrors_askingWith h ih) (heap.expression (.ref a))
          rw [← hexpression] at hrender
          refine mirrors_bind hrender fun w => ?_
          have htype : Mirrors ρ declaring (throw (.notTextResult (heap.type w)) : Eval Text)
              (throw (.notTextResult (heap'.type (moved ρ w)))) := by
            rw [Heap.moved_type]
            exact mirrors_throw _
          cases w with
          | text t => exact mirrors_pure rfl
          | _ => exact htype
        | pattern p => exact mirrors_pure rfl
        | failure kind arguments =>
          have hitems : heap'.items? (moved ρ arguments) = moved ρ (heap.items? arguments) :=
            Heap.moved_items? arguments
          simp only [moved_ref, moved_some, moved_cell_failure, hitems]
          rcases heap.items? arguments with _ | _ | ⟨argument, _ | _⟩
          · exact hshown arguments
          · exact mirrors_pure rfl
          · exact ih argument
          · exact hshown arguments
        | _ => exact hv
    | _ => exact hv

theorem mirrors_printed (v : Value) :
    Mirrors ρ declaring (printed call v) (printed call' (moved ρ v)) :=
  mirrors_printedFrom h printDepth v

theorem mirrors_asking :
    (asking call).Mirrors ρ declaring (asking call') := mirrors_askingWith h (mirrors_printed h)

end

end FunctionManifest
