import FunctionManifest.Proofs.Relocation.Keeping
import FunctionManifest.Loading.Load

/-!
# Endpoints

What is made for the manifest of a function, its endpoint, its required APIs and its filters, is
made of values alone.
-/

namespace FunctionManifest

variable {ρ : Relocation} {heap heap' : Heap}

/-! ## Required APIs -/

namespace RequiredApi

@[simp] theorem moved_wire (r : RequiredApi) : (moved ρ r).wire = moved ρ r.wire := by
  simp [wire]

section

variable {same same' : Value → Value → Bool} (h : ∀ v w, same' (moved ρ v) (moved ρ w) = same v w)

include h

theorem moved_addReason (reasons : List Value) (reason : Value) :
    addReason same' (moved ρ reasons) (moved ρ reason) =
      moved ρ (addReason same reasons reason) := by
  have hany : (moved ρ reasons).any (same' · (moved ρ reason)) = reasons.any (same · reason) := by
    simp only [moved_list, List.any_map, Function.comp_def, h]
  unfold addReason
  rw [hany]
  split <;> simp

theorem moved_reasonsByApi (required : List RequiredApi) :
    reasonsByApi same' (moved ρ required) = moved ρ (reasonsByApi same required) := by
  have hfold : ∀ reasons : List (Value × List Value),
      (moved ρ required).foldl (fun reasons r =>
        let known := (Assoc.lookBy same' reasons r.api).getD []
        Assoc.putBy same' reasons r.api (addReason same' known r.reason)) (moved ρ reasons) =
      moved ρ (required.foldl (fun reasons r =>
        let known := (Assoc.lookBy same reasons r.api).getD []
        Assoc.putBy same reasons r.api (addReason same known r.reason)) reasons) := by
    induction required with
    | nil => exact fun reasons => rfl
    | cons r rest ih =>
      intro reasons
      have hknown : (Assoc.lookBy same' (moved ρ reasons) (moved ρ r.api)).getD [] =
          moved ρ ((Assoc.lookBy same reasons r.api).getD []) := by
        rw [Assoc.moved_lookBy h]
        cases Assoc.lookBy same reasons r.api <;> rfl
      simp only [moved_cons, List.foldl_cons, RequiredApi.relocatable_moved_api,
        RequiredApi.relocatable_moved_reason,
        hknown, moved_addReason h, Assoc.moved_putBy h, ih]
  exact hfold []

theorem moved_merge {joined joined' : List Value → Except Failure Text}
    (hjoined : ∀ reasons, joined' (moved ρ reasons) = joined reasons)
      (required : List RequiredApi) :
    merge same' joined' (moved ρ required) = moved ρ (merge same joined required) := by
  unfold merge
  rw [moved_reasonsByApi h]
  refine moved_mapM _ fun entry => ?_
  obtain ⟨api, reasons⟩ := entry
  simp only [moved_pair, hjoined]
  cases joined reasons <;> rfl

end

end RequiredApi

section

variable [Heap.Moved ρ heap heap']

@[simp] theorem Heap.moved_mergedApis (items : List Value) :
    heap'.mergedApis (moved ρ items) = moved ρ (heap.mergedApis items) := by
  unfold mergedApis
  rw [moved_mapM items moved_requirement]
  exact moved_bind _ fun required => RequiredApi.moved_merge moved_sameKey (moved_joined _) required

/-! ## Triggers -/

namespace Payload

theorem moved_kind (p : Payload) : (moved ρ p).kind = p.kind := by cases p <;> rfl

theorem moved_invokerFields (v : Value) :
    invokerFields heap' (moved ρ v) = moved ρ (invokerFields heap v) := by
  have hmany : (do return field "invoker" (.list (← heap'.items (moved ρ v)))) =
      moved ρ (do return field "invoker" (.list (← heap.items v)) : Except Failure Fields) := by
    rw [Heap.moved_items]
    exact moved_bind _ fun names => by simp
  cases v with
  | null | text => rfl
  | _ => exact hmany

omit [Heap.Moved ρ heap heap'] in
theorem moved_truthy [Heap.Moved ρ heap heap'] (name : String) (v : Value) :
    truthy heap' name (moved ρ v) = moved ρ (truthy heap name v) := by
  unfold truthy
  rw [Heap.moved_isTruthy]
  split <;> rfl

theorem moved_fields (p : Payload) : (moved ρ p).fields heap' = moved ρ (p.fields heap) := by
  cases p with
  | request invoker => exact moved_invokerFields invoker
  | call => rfl
  | schedule times timezone retries =>
    change Except.ok (field "schedule" (moved ρ times) ++ given "timeZone" (moved ρ timezone) ++
      truthy heap' "retryConfig" (moved ρ retries)) = _
    simp [fields, moved_truthy]
  | event type exact patterns channel region retry =>
    change Except.ok (field "eventType" (moved ρ type) ++ field "eventFilters" (moved ρ exact) ++
      truthy heap' "eventFilterPathPatterns" (moved ρ patterns) ++
        given "channel" (moved ρ channel) ++
      given "region" (moved ρ region) ++ field "retry" (moved ρ retry)) = _
    simp [fields, moved_truthy]

end Payload

theorem TriggerKind.moved_ofValue (key : Value) :
    ofValue heap' (moved ρ key) = ofValue heap key := by
  have hother :
      (heap'.shown (moved ρ key) >>= fun shown => throw (.unknownTriggerKind shown) :
      Except Failure TriggerKind) =
      heap.shown key >>= fun shown => throw (.unknownTriggerKind shown) := by
    rw [Heap.moved_shown]
  unfold ofValue
  rw [Heap.moved_checkKey]
  cases heap.checkKey key with
  | error => rfl
  | ok =>
    cases key with
    | text => rfl
    | _ => exact hother

theorem moved_labelEntries (labels : Value) :
    labelEntries heap' (moved ρ labels) = moved ρ (labelEntries heap labels) := by
  unfold labelEntries
  rw [Heap.moved_isTruthy, Heap.moved_dictionary]
  split <;> rfl

namespace EndpointOption

theorem moved_secretKey (item : Value) :
    secretKey heap' (moved ρ item) = moved ρ (secretKey heap item) := by
  unfold secretKey
  rw [Heap.moved_cell?]
  cases heap.cell? item with
  | none => rfl
  | some cell => cases cell <;> rfl

omit [Heap.Moved ρ heap heap'] in
theorem moved_ofKeyword? (keyword : Value) : ofKeyword? (moved ρ keyword) = ofKeyword? keyword := by
  cases keyword <;> simp [ofKeyword?]

theorem moved_normalize (option : EndpointOption) (v : Value) :
    option.normalize heap' (moved ρ v) = moved ρ (option.normalize heap v) := by
  have hsecrets :
      (do return Value.list ((← heap'.items (moved ρ v)).map fun item =>
        .named (field "key" (secretKey heap' item)))) =
      moved ρ (do return Value.list ((← heap.items v).map fun item =>
        .named (field "key" (secretKey heap item))) : Except Failure Value) := by
    rw [Heap.moved_items]
    refine moved_bind _ fun items => ?_
    rw [moved_pure, moved_valueList,
      moved_map (f := fun item => .named (field "key" (secretKey heap item)))]
    exact fun item => by simp [moved_secretKey]
  cases option with
  | secrets => cases v <;> exact hsecrets
  | region => cases v with
    | text => simp [normalize]
    | _ => rfl
  | _ => cases v <;> rfl

end EndpointOption

theorem moved_buildOption (keyword v : Value) :
    buildOption heap' (moved ρ keyword) (moved ρ v) = moved ρ (buildOption heap keyword v) := by
  cases v with
  | null => rfl
  | _ =>
    rw [buildOption, buildOption, EndpointOption.moved_ofKeyword?, Heap.moved_shown]
    · cases EndpointOption.ofKeyword? keyword with
      | none => cases heap.shown keyword <;> rfl
      | some option =>
        simp only [EndpointOption.moved_normalize]
        exact moved_bind _ fun v => rfl
    all_goals
      intro h
      cases h

theorem moved_buildOptions (options : Entries) :
    buildOptions heap' (moved ρ options) = moved ρ (buildOptions heap options) := by
  induction options with
  | nil => rfl
  | cons entry rest ih =>
    obtain ⟨keyword, v⟩ := entry
    simp only [moved_cons, moved_pair, buildOptions, moved_buildOption, ih]
    exact moved_bind _ fun option => moved_bind _ fun options => by simp

theorem Endpoint.moved_make (kind trigger platform labels : Value) (options : Entries) :
    make heap' (moved ρ kind) (moved ρ trigger) (moved ρ platform) (moved ρ labels)
      (moved ρ options) =
      moved ρ (make heap kind trigger platform labels options) := by
  unfold make
  rw [Heap.moved_dictionary, moved_labelEntries, moved_buildOptions, TriggerKind.moved_ofValue]
  refine moved_bind _ fun trigger => moved_bind _ fun labels => moved_bind _ fun options => ?_
  cases TriggerKind.ofValue heap kind with
  | error => rfl
  | ok kind =>
    refine congrArg Except.ok ?_
    rw [← moved_valueMapping, ← moved_valueMapping, ← moved_named]
    rfl

theorem Trigger.moved_endpoint (t : Trigger) :
    (moved ρ t).endpoint heap' = moved ρ (t.endpoint heap) := by
  unfold endpoint
  simp only [Trigger.relocatable_moved_payload, Trigger.relocatable_moved_labels,
    Trigger.relocatable_moved_options, Payload.moved_fields, Payload.moved_kind]
  refine moved_bind _ fun fields => ?_
  have hmake : Endpoint.make heap' _ _ _ _ _ = moved ρ _ :=
    Endpoint.moved_make (.text t.payload.kind.key) (.named fields) .null t.labels
      (t.options.map fun option => (Value.text option.1, option.2))
  have hoptions : (moved ρ t.options).map (fun option => (Value.text option.1, option.2)) =
      moved ρ (t.options.map fun option => (Value.text option.1, option.2)) :=
    moved_map _ fun option => rfl
  rw [← hmake, hoptions]
  simp

/-! ## Filters -/

theorem moved_filterPattern? (v : Value) :
    filterPattern? heap' (moved ρ v) = filterPattern? heap v := by
  have hcell : heap'.cell? (moved ρ v) = moved ρ (heap.cell? v) := Heap.moved_cell? v
  unfold filterPattern?
  rw [hcell]
  cases v with
  | text => rfl
  | _ =>
    cases heap.cell? _ with
    | none => rfl
    | some cell => cases cell <;> rfl

@[simp] theorem moved_patternFilter? (v : Value) :
    patternFilter? heap' (moved ρ v) = patternFilter? heap v := by
  unfold patternFilter?
  rw [moved_filterPattern?]

@[simp] theorem moved_exactFilter (v : Value) :
    exactFilter heap' (moved ρ v) = moved ρ (exactFilter heap v) := by
  unfold exactFilter
  rw [moved_filterPattern?]
  cases filterPattern? heap v <;> simp

theorem moved_splitFilters (filters : Entries) :
    splitFilters heap' (moved ρ filters) = moved ρ (splitFilters heap filters) := by
  induction filters with
  | nil => rfl
  | cons filter rest ih =>
    obtain ⟨key, v⟩ := filter
    simp only [splitFilters, moved_pair, Prod.mk.injEq] at ih
    simp only [splitFilters, moved_cons, moved_pair, List.filter_cons, List.filterMap_cons,
      moved_patternFilter?]
    cases patternFilter? heap v <;> simp [ih]

end

end FunctionManifest
