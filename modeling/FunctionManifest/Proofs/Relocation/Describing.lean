import FunctionManifest.Proofs.Relocation.Reading
import FunctionManifest.Language.Operation

/-!
# Wire forms

The parts of a manifest are asked for their wire forms and kept as new objects.
-/

namespace FunctionManifest

open Eval

variable {ρ : Relocation} {declaring : Prop} {α : Type} [Relocatable α]

/-! ## Entries -/

section

variable {heap heap' : Heap} [Heap.Moved ρ heap heap']

theorem moved_entriesUntil (items : List Value) :
    entriesUntil heap' (moved ρ items) = moved ρ (entriesUntil heap items) := by
  induction items with
  | nil => rfl
  | cons item rest ih =>
    rw [moved_cons]
    unfold entriesUntil
    rw [Heap.moved_pairOf, ih]
    cases heap.pair item <;> rfl

end

section

variable {call call' : Caller} (h : Caller.Mirrors ρ declaring call call')

include h

theorem mirrors_listedEntries (v : Value) :
    Mirrors ρ declaring (listedEntries call v) (listedEntries call' (moved ρ v)) := by
  refine mirrors_heap_bind fun heap heap' _ => ?_
  rw [Heap.moved_entries?]
  cases heap.entries? v with
  | some entries => exact mirrors_pure rfl
  | none =>
    refine mirrors_bind (mirrors_callAttribute h v "items" (by decide) []) fun listed => ?_
    refine mirrors_bind (mirrors_reading fun _ _ _ => Heap.moved_items listed) fun items => ?_
    exact mirrors_heap_bind fun _ _ _ => mirrors_pure (moved_entriesUntil items)

theorem mirrors_fromEntries (v : Value) {make make' : Heap → Entries → Except Failure α}
    (hmake : ∀ (heap heap' : Heap) [Heap.Moved ρ heap heap'] entries,
      make' heap' (moved ρ entries) = moved ρ (make heap entries)) :
    Mirrors ρ declaring (fromEntries call v make) (fromEntries call' (moved ρ v) make') := by
  refine mirrors_bind (mirrors_listedEntries h v) fun listed => ?_
  obtain ⟨entries, stop⟩ := listed
  refine mirrors_bind (mirrors_reading fun heap heap' _ => hmake heap heap' entries) fun made => ?_
  cases stop with
  | none => exact mirrors_pure rfl
  | some failure => exact mirrors_throw _

/-! ## Wire form -/

theorem mirrors_settingWire (v : Value) :
    Mirrors ρ declaring (do ((← heap).setting v).wire (asking call))
      (do ((← heap).setting (moved ρ v)).wire (asking call')) := by
  refine mirrors_heap_bind fun heap heap' _ => ?_
  rw [Heap.moved_settingOf]
  exact mirrors_setting (mirrors_asking h) (heap.setting v)

theorem mirrors_wireOf (v : Value) :
    Mirrors ρ declaring (wireOf call v) (wireOf call' (moved ρ v)) := by
  have hintern : ∀ wire : Value, Mirrors ρ declaring (intern wire) (intern (moved ρ wire)) :=
    fun _ => mirrors_intern rfl
  unfold wireOf
  refine mirrors_heap_bind fun heap heap' _ => ?_
  rw [Heap.moved_settingOf]
  exact mirrors_bind (mirrors_setting (mirrors_asking h) (heap.setting v)) hintern

/-- The second reader reads what the first one does. -/
structure EndpointReader.Mirrors (ρ : Relocation) (declaring : Prop)
    (reader reader' : EndpointReader Eval) : Prop where
  part : ∀ name, Eval.Mirrors ρ declaring (reader.part name) (reader'.part name)
  convert : ∀ v, Eval.Mirrors ρ declaring (reader.convert v) (reader'.convert (moved ρ v))
  entries : ∀ v, Eval.Mirrors ρ declaring (reader.entries v) (reader'.entries (moved ρ v))
  put : ∀ entries key v, Eval.Mirrors ρ declaring (reader.put entries key v)
    (reader'.put (moved ρ entries) (moved ρ key) (moved ρ v))

omit h in
theorem mirrors_putOptions {reader reader' : EndpointReader Eval}
    (h : reader.Mirrors ρ declaring reader') (wire options : Entries) :
    Mirrors ρ declaring (reader.putOptions wire options)
      (reader'.putOptions (moved ρ wire) (moved ρ options)) := by
  induction options generalizing wire with
  | nil => exact mirrors_pure rfl
  | cons option rest ih =>
    obtain ⟨key, v⟩ := option
    exact mirrors_bind (h.convert v) fun v => mirrors_bind (h.put wire key v) ih

omit h in
theorem mirrors_endpointReader_wire {reader reader' : EndpointReader Eval}
    (h : reader.Mirrors ρ declaring reader') :
    Mirrors ρ declaring reader.wire reader'.wire := by
  refine mirrors_bind (h.part _) fun entryPoint => mirrors_bind (h.part _) fun platform => ?_
  refine mirrors_bind (h.part _) fun labels => mirrors_bind (h.convert _) fun labels => ?_
  refine mirrors_bind (h.part _) fun trigger => mirrors_bind (h.convert _) fun trigger => ?_
  refine mirrors_bind (h.part _) fun kind => ?_
  have hheader : [(Value.text "entryPoint", moved ρ entryPoint)] ++
      ((moved ρ platform).given?.map fun v => (Value.text "platform", v)).toList ++
        [(Value.text "labels", moved ρ labels)] =
      moved ρ ([(Value.text "entryPoint", entryPoint)] ++
        (platform.given?.map fun v => (Value.text "platform", v)).toList ++
          [(Value.text "labels", labels)]) := by
    rw [Value.moved_given?]
    cases platform.given? <;> rfl
  rw [hheader]
  refine mirrors_bind (h.put _ kind trigger) fun wire => mirrors_bind (h.part _) fun options => ?_
  refine mirrors_bind (h.entries options) fun options =>
    mirrors_map (mirrors_putOptions h wire options) fun wire => ?_
  exact (moved_valueMapping wire).symm

theorem mirrors_endpointReader (v : Value) :
    (endpointReader call v).Mirrors ρ declaring (endpointReader call' (moved ρ v)) where
  part _ := mirrors_getAttribute h v _
  convert v := mirrors_settingWire h v
  entries v := mirrors_fromEntries h v fun _ _ _ _ => rfl
  put entries key v := mirrors_reading fun _ _ _ => Heap.moved_putEntry entries key v

theorem mirrors_endpointWire (v : Value) :
    Mirrors ρ declaring (endpointWire call v) (endpointWire call' (moved ρ v)) :=
  mirrors_endpointReader_wire (mirrors_endpointReader h v)

omit h in
theorem moved_manifest (endpoints : Entries) (apis : List Value) (version : Value)
    (params : Option Value) :
    moved ρ (Stack.manifest endpoints apis version params) =
      Stack.manifest (moved ρ endpoints) (moved ρ apis) (moved ρ version) (moved ρ params) := by
  simp [Stack.manifest]

theorem mirrors_stackWire (v : Value) :
    Mirrors ρ declaring (stackWire call v) (stackWire call' (moved ρ v)) := by
  refine mirrors_bind (mirrors_getAttribute h v _) fun endpoints => ?_
  refine mirrors_bind (mirrors_fromEntries h endpoints fun _ _ _ entries => rfl) fun entries => ?_
  refine mirrors_bind (mirrors_mapM entries fun entry =>
    mirrors_map (mirrors_endpointWire h entry.2) fun wire => rfl) fun endpoints => ?_
  refine mirrors_bind (mirrors_getAttribute h v _) fun apis => ?_
  refine mirrors_bind (mirrors_reading fun _ _ _ => Heap.moved_items apis) fun apis => ?_
  refine mirrors_bind (mirrors_mapM apis fun api => mirrors_callAttribute h api "to_wire" (by decide) [])
    fun apis => ?_
  refine mirrors_bind (mirrors_getAttribute h v _) fun version =>
    mirrors_bind (mirrors_getAttribute h v _) fun params => ?_
  have hfinish (params : Option Value) :
      Mirrors ρ declaring (intern (Stack.manifest endpoints apis version params))
      (intern (Stack.manifest (moved ρ endpoints) (moved ρ apis) (moved ρ version)
        (moved ρ params))) :=
    mirrors_intern (moved_manifest endpoints apis version params).symm
  refine mirrors_heap_bind fun heap heap' _ => ?_
  rw [Heap.moved_isTruthy]
  split
  · exact mirrors_bind (mirrors_map (mirrors_wireOf h params) fun _ => rfl) hfinish
  · exact mirrors_bind (mirrors_pure rfl) hfinish

/-! ## Specs -/

theorem mirrors_specOf (v : Value) :
    Mirrors ρ declaring (specOf call v) (specOf call' (moved ρ v)) :=
  mirrors_callAttribute h v "to_spec" (by decide) []

omit h in
theorem Param.moved_spec (p : Param) (default : Value) (prompt : Option Value) :
    moved ρ (p.spec default prompt) = (moved ρ p).spec (moved ρ default) (moved ρ prompt) := by
  simp [Param.spec]

theorem mirrors_paramSpec (p : Param) :
    Mirrors ρ declaring (paramSpec call p) (paramSpec call' (moved ρ p)) := by
  refine mirrors_bind (mirrors_reading fun _ _ _ => p.moved_specDefault) fun default => ?_
  rw [Param.relocatable_moved_input, Value.moved_given?]
  refine mirrors_bind (mirrors_option_mapM _ fun v => mirrors_specOf h v) fun prompt => ?_
  exact mirrors_intern (p.moved_spec default prompt).symm

omit h in
theorem Secret.moved_spec (secret : Secret) : moved ρ secret.spec = (moved ρ secret).spec := by
  obtain ⟨json, name⟩ := secret
  cases json <;> simp [Secret.spec]

namespace Prompt

omit h in
theorem moved_nest (names : List String) (v : Value) :
    moved ρ (nest names v) = nest names (moved ρ v) := by
  induction names with
  | nil => rfl
  | cons name rest ih =>
    simp only [nest, List.foldr_cons, moved_named, moved_field] at ih ⊢; rw [ih]

omit h in
theorem moved_textSpec (sample pattern complaint : Value) :
    moved ρ (textSpec sample pattern complaint) =
      textSpec (moved ρ sample) (moved ρ pattern) (moved ρ complaint) := by
  simp [textSpec, moved_nest]

omit h in
theorem moved_selectSpec (many : Bool) (choices : List Value) :
    moved ρ (selectSpec many choices) = selectSpec many (moved ρ choices) := by
  simp [selectSpec, moved_nest]

omit h in
theorem moved_resourceSpec (type : Value) :
    moved ρ (resourceSpec type) = resourceSpec (moved ρ type) := moved_nest _ _

end Prompt

theorem mirrors_selectSpec (many : Bool) (choices : Value) :
    Mirrors ρ declaring (selectSpec call many choices)
      (selectSpec call' many (moved ρ choices)) := by
  refine mirrors_bind (mirrors_reading fun _ _ _ => Heap.moved_items choices) fun choices => ?_
  refine mirrors_bind (mirrors_mapM choices fun choice => mirrors_specOf h choice) fun choices => ?_
  exact mirrors_intern (Prompt.moved_selectSpec many choices).symm

end

/-! ## Objects with parts -/

theorem mirrors_allocateApi (required : RequiredApi) :
    Mirrors ρ declaring (allocateApi required) (allocateApi (moved ρ required)) :=
      mirrors_allocate rfl rfl

theorem mirrors_allocateEndpoint (e : Endpoint) :
    Mirrors ρ declaring (allocateEndpoint e) (allocateEndpoint (moved ρ e)) :=
  mirrors_bind (mirrors_intern rfl) fun _ => mirrors_bind (mirrors_intern rfl) fun _ =>
    mirrors_bind (mirrors_intern rfl) fun _ => mirrors_allocate rfl rfl

instance : Plain Segment where

theorem mirrors_allocatePattern (template : Text) :
    Mirrors ρ declaring (allocatePattern template) (allocatePattern template) := by
  have hsegments := moved_plainList (ρ := ρ) (Pattern.mk template).segments
  unfold allocatePattern
  refine mirrors_bind ?_ fun segments => ?_
  · nth_rewrite 2 [← hsegments]
    refine mirrors_mapM _ fun segment => ?_
    cases segment <;> exact mirrors_allocate rfl rfl
  · exact mirrors_bind (mirrors_intern (moved_valueTuple segments).symm) fun _ =>
      mirrors_allocate rfl rfl

theorem mirrors_allocatePrompt (many : Bool) (choices : List Choice) :
    Mirrors ρ declaring (allocatePrompt many choices) (allocatePrompt many (moved ρ choices)) := by
  refine mirrors_bind (mirrors_mapM choices fun choice => mirrors_allocate rfl rfl) fun choices => ?_
  exact mirrors_bind (mirrors_intern (moved_valueTuple choices).symm) fun choices =>
    mirrors_allocate rfl rfl

theorem mirrors_attach (trigger : Trigger) (invoke : Value) :
    Mirrors ρ declaring (attach trigger invoke) (attach (moved ρ trigger) (moved ρ invoke)) :=
  mirrors_bind (mirrors_reading fun _ _ _ => trigger.moved_endpoint) fun e =>
    mirrors_bind (mirrors_allocateEndpoint e) fun _ => mirrors_allocate rfl rfl

theorem mirrors_newComparison (op left right : Value) :
    Mirrors ρ declaring (newComparison op left right)
      (newComparison (moved ρ op) (moved ρ left) (moved ρ right)) := by
  refine mirrors_bind (mirrors_reading fun _ _ _ =>
    (Heap.moved_checkKey op).trans (moved_plainResult _).symm) fun _ => ?_
  have hunknown :
      Mirrors ρ declaring (do throw (.unknownComparator (← reading (·.shown op))) : Eval Value)
      (do throw (.unknownComparator (← reading (·.shown (moved ρ op))))) :=
    mirrors_bind (α := Text) (mirrors_reading fun _ _ _ =>
      (Heap.moved_shown op).trans (moved_plainResult _).symm) fun _ => mirrors_failed rfl
  cases op with
  | text symbol =>
    simp only [moved_text] at hunknown ⊢
    cases Comparator.ofSymbol? symbol with
    | none => exact hunknown
    | some op => exact mirrors_allocate rfl rfl
  | _ => exact hunknown

end FunctionManifest
