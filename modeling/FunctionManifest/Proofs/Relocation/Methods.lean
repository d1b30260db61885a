import FunctionManifest.Proofs.Relocation.Asked

/-!
# Methods

Each method mirrors itself if the callers do. Only registries are changed.
-/

namespace FunctionManifest

open Eval

variable {ρ : Relocation} {declaring : Prop}

/-! ## Patterns -/

section

variable {call call' : Caller} (h : Caller.Mirrors ρ declaring call call')

include h

theorem mirrors_partsOf (path : Value) :
    Mirrors ρ declaring (partsOf call path) (partsOf call' (moved ρ path)) := by
  have hother : Mirrors ρ declaring
      (do
        let inner ← callAttribute call path "strip" [.text "/"]
        if (← heap).isTruthy inner then
          reading (·.items (← callAttribute call inner "split" [.text "/"]))
        else return [])
      (do
        let inner ← callAttribute call' (moved ρ path) "strip" [.text "/"]
        if (← heap).isTruthy inner then
          reading (·.items (← callAttribute call' inner "split" [.text "/"]))
        else return []) := by
    refine mirrors_bind (mirrors_callAttribute h path "strip" (by decide) [.text "/"]) fun inner => ?_
    refine mirrors_heap_bind fun heap heap' _ => ?_
    rw [Heap.moved_isTruthy]
    split
    · refine mirrors_bind (mirrors_callAttribute h inner "split" (by decide) [.text "/"]) fun parts => ?_
      exact mirrors_reading fun _ _ _ => Heap.moved_items parts
    · exact mirrors_pure rfl
  cases path with
  | text t => exact mirrors_pure (moved_mapText _).symm
  | _ => exact hother

omit h in
theorem mirrors_matchable (v : Value) :
    Mirrors ρ declaring (matchable v) (matchable (moved ρ v)) := by
  have hother : Mirrors ρ declaring (do throw (.notMatchable ((← heap).type v)) : Eval Text)
      (do throw (.notMatchable ((← heap).type (moved ρ v)))) :=
    mirrors_heap_bind fun heap _ _ =>
      mirrors_failed (congrArg Failure.notMatchable (Heap.moved_type v))
  cases v with
  | text t => exact mirrors_pure rfl
  | _ => exact hother

theorem mirrors_newPattern (template : Value) :
    Mirrors ρ declaring (newPattern call template) (newPattern call' (moved ρ template)) := by
  have hother : Mirrors ρ declaring
      (do
        let parts ← (← partsOf call template).mapM matchable
        allocatePattern (Text.join "/" parts))
      (do
        let parts ← (← partsOf call' (moved ρ template)).mapM matchable
        allocatePattern (Text.join "/" parts)) :=
    mirrors_bind (mirrors_partsOf h template) fun parts =>
      mirrors_bind (mirrors_mapM parts mirrors_matchable) fun texts => by
        rw [moved_plainList]
        exact mirrors_allocatePattern _
  cases template with
  | text t => exact mirrors_allocatePattern t
  | _ => exact hother

theorem mirrors_matchesOf (p : Pattern) (path : Value) :
    Mirrors ρ declaring (matchesOf call p path) (matchesOf call' p (moved ρ path)) := by
  unfold matchesOf
  split
  · refine mirrors_bind (mirrors_partsOf h path) fun parts => ?_
    refine mirrors_bind (mirrors_mapM parts mirrors_matchable) fun texts => ?_
    rw [moved_plainList]
    refine mirrors_intern ?_
    rw [moved_named]
    exact congrArg Value.named (by simp [moved_list])
  · exact mirrors_intern rfl

end

/-! ## Registries -/

theorem mirrors_asRegistry (v : Value) (name : Text) :
    Mirrors ρ declaring (asRegistry v name) (asRegistry (moved ρ v) name) := by
  have hmissing : Mirrors ρ declaring (do throw (← missing v name) : Eval (Nat × Registry Value))
      (do throw (← missing (moved ρ v) name)) :=
    mirrors_bind (mirrors_missing v name) fun failure => mirrors_throw _
  refine mirrors_bind (mirrors_cell? v) fun cell => ?_
  cases v with
  | ref a =>
    cases cell with
    | none => exact hmissing
    | some cell =>
      cases cell with
      | registry r => exact mirrors_pure rfl
      | _ => exact hmissing
  | _ => exact hmissing

theorem mirrors_changeRegistry (a : Nat) (registry : Registry Value)
    (declared declared' : Option Declaration) :
    Mirrors ρ declaring (changeRegistry a registry declared)
      (changeRegistry (ρ.address a) (moved ρ registry) declared') :=
  mirrors_bind (fun _ _ hs => mirrorsFrom_replace hs a (.inr (Cell.isOrdinary_of_bare rfl)))
    fun _ _ _ hs => ⟨rfl, { hs with heap := hs.heap }⟩

section

variable {heap heap' : Heap} [Heap.Moved ρ heap heap']

theorem Registry.moved_register (registry : Registry Value) (v : Value) :
    (moved ρ registry).register heap'.sameName (moved ρ v) =
      moved ρ (registry.register heap.sameName v) := by
  unfold register
  rw [Registry.relocatable_moved_entries, moved_filterM registry.entries fun w => ?_]
  · exact moved_bind _ fun others =>
      congrArg pure (congrArg Registry.mk (moved_append others [v]).symm)
  · rw [Heap.moved_sameName]

theorem Registry.moved_find? (registry : Registry Value) (name : Value) :
    (moved ρ registry).find? (heap'.hasName (moved ρ name)) =
      moved ρ (registry.find? (heap.hasName name)) :=
  FunctionManifest.moved_findM? registry.entries fun v => Heap.moved_hasName name v

end

theorem mirrors_register (target v : Value) :
    Mirrors ρ declaring (register target v) (register (moved ρ target) (moved ρ v)) := by
  refine mirrors_bind (mirrors_asRegistry target "_params") fun found => ?_
  obtain ⟨a, registry⟩ := found
  refine mirrors_bind (mirrors_reading fun _ _ _ => registry.moved_register v) fun registry => ?_
  refine mirrors_heap_bind fun heap heap' _ => ?_
  exact mirrors_bind (mirrors_changeRegistry a registry _ _) fun _ => mirrors_pure rfl

/-! ## Methods -/

theorem mirrors_asParam (v : Value) (name : Text) :
    Mirrors ρ declaring (asParam v name) (asParam (moved ρ v) name) := by
  have hmissing :
      Mirrors ρ declaring (do throw (← missing v name) : Eval Param)
      (do throw (← missing (moved ρ v) name)) :=
    mirrors_bind (mirrors_missing v name) fun failure => mirrors_throw _
  refine mirrors_bind (mirrors_cell? v) fun cell => ?_
  cases cell with
  | none => exact hmissing
  | some cell =>
    cases cell with
    | param p => exact mirrors_pure rfl
    | _ => exact hmissing

instance : Plain Pattern where

theorem mirrors_asPattern (v : Value) (name : Text) :
    Mirrors ρ declaring (asPattern v name) (asPattern (moved ρ v) name) := by
  have hmissing :
      Mirrors ρ declaring (do throw (← missing v name) : Eval Pattern)
      (do throw (← missing (moved ρ v) name)) :=
    mirrors_bind (mirrors_missing v name) fun failure => mirrors_throw _
  refine mirrors_bind (mirrors_cell? v) fun cell => ?_
  cases cell with
  | none => exact hmissing
  | some cell =>
    cases cell with
    | pattern p => exact mirrors_pure rfl
    | _ => exact hmissing

theorem mirrors_asEndpoint (v : Value) (name : Text) :
    Mirrors ρ declaring (asEndpoint v name) (asEndpoint (moved ρ v) name) := by
  have hmissing :
      Mirrors ρ declaring (do throw (← missing v name) : Eval Endpoint)
      (do throw (← missing (moved ρ v) name)) :=
    mirrors_bind (mirrors_missing v name) fun failure => mirrors_throw _
  refine mirrors_bind (mirrors_cell? v) fun cell => ?_
  cases cell with
  | none => exact hmissing
  | some cell =>
    cases cell with
    | endpoint e => exact mirrors_pure rfl
    | _ => exact hmissing

theorem mirrors_change (v : Value) {changed changed' : Cell → Cell}
    (h : ∀ cell, changed' (moved ρ cell) = moved ρ (changed cell))
    (hordinary : ∀ cell, cell.IsOrdinary → (changed cell).IsOrdinary) :
    Mirrors ρ declaring (change v changed) (change (moved ρ v) changed') := by
  intro s s' hs
  refine mirrorsFrom_bind (mirrors_cell? v s s' hs) fun cell t t' hcell ht => ?_
  obtain ⟨rfl, rfl⟩ : s.heap.cell? v = cell ∧ s = t := by
    rw [on_cell?, Prod.mk.injEq, Except.ok.injEq] at hcell
    exact hcell
  cases v with
  | ref a =>
    cases hfound : s.heap.cell? (.ref a) with
    | none => exact ⟨rfl, ht⟩
    | some cell =>
      have hchanged : declaring ∨ (changed cell).IsOrdinary :=
        ht.ordinary.imp_right fun hheap =>
          hordinary cell (hheap cell (Array.mem_of_getElem? hfound))
      have hreplaced := mirrorsFrom_replace ht a hchanged
      rw [← h] at hreplaced
      exact mirrorsFrom_bind hreplaced fun _ _ _ _ hu => ⟨rfl, hu⟩
  | _ => exact ⟨rfl, ht⟩

theorem mirrors_newReference (p : Value) :
    Mirrors ρ declaring (newReference p) (newReference (moved ρ p)) := mirrors_allocate rfl rfl

theorem mirrors_newChoice (test : Value) (arguments : Arguments) :
    Mirrors ρ declaring (newChoice test arguments)
      (newChoice (moved ρ test) (moved ρ arguments)) := by
  unfold newChoice
  rw [Arguments.moved_get, Arguments.moved_get]
  exact mirrors_allocate rfl rfl

section

variable {call call' : Caller} (h : Caller.Mirrors ρ declaring call call')

include h

theorem mirrors_rendered (v : Value) : Mirrors ρ declaring
    (do ((← heap).expression v).render (asking call))
      (do ((← heap).expression (moved ρ v)).render (asking call')) := by
  refine mirrors_heap_bind fun heap heap' _ => ?_
  rw [Heap.moved_expression]
  exact mirrors_expression (mirrors_asking h) _

theorem mirrors_runMethod (m : Method) (arguments : Arguments) :
    Mirrors ρ declaring (runMethod call m arguments) (runMethod call' m (moved ρ arguments)) := by
  unfold runMethod
  simp only [Arguments.moved_get]
  generalize arguments.get "self" = self
  cases m with
  | paramReference => exact mirrors_newReference self
  | paramCompare =>
    exact mirrors_bind (mirrors_newReference self) fun v => mirrors_newComparison _ v _
  | paramEquals =>
    exact mirrors_bind (mirrors_newReference self) fun v => mirrors_newComparison (.text "==") v _
  | paramChoose =>
    exact mirrors_bind (mirrors_newReference self) fun v => mirrors_newChoice v arguments
  | paramSpec => exact mirrors_bind (mirrors_asParam self "name") fun p => mirrors_paramSpec h p
  | builtinSpec =>
    refine mirrors_bind (α := Text) (mirrors_reading fun heap heap' _ => ?_) fun shown =>
      mirrors_failed rfl
    rw [Heap.moved_nameOf]
    exact (moved_bound rfl fun name => (Heap.moved_shown name).trans (moved_plainResult _).symm)
  | secretSpec =>
    have hmissing : Mirrors ρ declaring (do throw (← missing self "name") : Eval Value)
        (do throw (← missing (moved ρ self) "name")) :=
      mirrors_bind (mirrors_missing self "name") fun failure => mirrors_throw _
    refine mirrors_bind (mirrors_cell? self) fun cell => ?_
    cases cell with
    | none => exact hmissing
    | some cell =>
      cases cell with
      | secret secret => exact mirrors_intern secret.moved_spec.symm
      | _ => exact hmissing
  | renderBase | renderParam | renderCompare | renderIfElse => exact mirrors_rendered h self
  | deferredText =>
    refine mirrors_heap_bind fun heap heap' _ => ?_
    rw [Heap.moved_expression]
    exact mirrors_map (mirrors_deferredText (mirrors_asking h) _) fun _ => rfl
  | compare => exact mirrors_newComparison _ self _
  | equals => exact mirrors_newComparison (.text "==") self _
  | choose => exact mirrors_newChoice self arguments
  | textSpec =>
    refine mirrors_bind (mirrors_getAttribute h self _) fun sample =>
      mirrors_bind (mirrors_getAttribute h self _) fun pattern => ?_
    refine mirrors_bind (mirrors_getAttribute h self _) fun complaint => ?_
    exact mirrors_intern (Prompt.moved_textSpec sample pattern complaint).symm
  | choiceSpec =>
    refine mirrors_bind (mirrors_getAttribute h self _) fun label =>
      mirrors_bind (mirrors_getAttribute h self _) fun v => ?_
    exact mirrors_intern (by simp [Choice.spec])
  | selectSpec many =>
    exact mirrors_bind (mirrors_getAttribute h self _) fun options =>
      mirrors_selectSpec h many options
  | resourceSpec =>
    exact mirrors_bind (mirrors_getAttribute h self _) fun type =>
      mirrors_intern (Prompt.moved_resourceSpec type).symm
  | register => exact mirrors_register self _
  | find =>
    refine mirrors_bind (mirrors_asRegistry self "_params") fun found => ?_
    refine mirrors_map (mirrors_reading fun _ _ _ => found.2.moved_find? _) fun v => ?_
    cases v <;> rfl
  | specs =>
    refine mirrors_bind (mirrors_asRegistry self "_params") fun found => ?_
    exact mirrors_bind (mirrors_mapM found.2.entries fun v => mirrors_specOf h v) fun specs =>
      mirrors_intern (moved_valueList specs).symm
  | clear =>
    refine mirrors_bind (mirrors_asRegistry self "_params") fun found => ?_
    exact mirrors_bind (mirrors_changeRegistry found.1 .empty none none) fun _ => mirrors_pure rfl
  | compile => exact mirrors_newPattern h _
  | hasCaptures => exact mirrors_map (mirrors_asPattern self _) fun _ => rfl
  | hasWildcards => exact mirrors_map (mirrors_asPattern self _) fun _ => rfl
  | extractMatches => exact mirrors_bind (mirrors_asPattern self _) fun p => mirrors_matchesOf h p _
  | withEntryPoint => exact mirrors_bind (mirrors_asEndpoint self _) fun e => mirrors_allocate rfl rfl
  | withPlatform => exact mirrors_bind (mirrors_asEndpoint self _) fun e => mirrors_allocate rfl rfl
  | apiWire =>
    refine mirrors_bind (mirrors_getAttribute h self _) fun api =>
      mirrors_bind (mirrors_getAttribute h self _) fun reason => ?_
    exact mirrors_intern (RequiredApi.moved_wire ⟨api, reason⟩)
  | append =>
    refine mirrors_change self (fun cell => ?_) fun cell h => ?_
    · cases cell with
      | list items => simp
      | _ => rfl
    · cases cell <;> exact h
  | removeAll =>
    refine mirrors_change self (fun cell => ?_) fun cell h => ?_
    · cases cell <;> rfl
    · cases cell <;> exact h

end

end FunctionManifest
