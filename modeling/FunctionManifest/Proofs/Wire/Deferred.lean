import FunctionManifest.Proofs.Wire.Attached

/-!
# Deferred options

A reset, a param or an expression can be given for an option: it is kept as it is, and the wire form
has what the deploy tool resolves. Only secrets are gone through at once, so nothing deferred can be
given for them.
-/

namespace FunctionManifest

open Eval

/-- Objects that a deploy tool resolves. -/
def Cell.isDeferred : Cell → Bool
  | .reset | .param _ | .formula _ => true
  | _ => false

def Heap.isDeferred (heap : Heap) (v : Value) : Bool := (heap.cell? v).any Cell.isDeferred

/-- Converting the value ends so: a reset is null, and all else is asked for its text. -/
inductive Session.Defers (s : Session) (v : Value) : Except Failure Value → Prop
  | reset (hcell : s.heap.cell? v = some .reset) : Defers s v (.ok .null)
  | param {p : Param} {u u' : Session} {text : Except Failure Text}
      (hcell : s.heap.cell? v = some (.param p)) (hu : s.ComesTo u)
      (htext : ((Expression.param v).deferredText (asking call)).on u = (text, u')) :
      Defers s v (text.map .text)
  | formula {f : Formula} {u u' : Session} {text : Except Failure Text}
      (hcell : s.heap.cell? v = some (.formula f)) (hu : s.ComesTo u)
      (htext : ((u.heap.expression v).deferredText (asking call)).on u = (text, u')) :
      Defers s v (text.map .text)

namespace Heap

variable {heap later : Heap} {v : Value} {o : EndpointOption} {before after : Entries}
  {fields fields' : Fields}

theorem isDeferred_iff : heap.isDeferred v = true ↔
    ∃ cell, heap.cell? v = some cell ∧ cell.isDeferred = true := by
  simp [isDeferred, Option.any_eq_true]

theorem Keeps.deferred {cell : Cell} (h : later.Keeps heap) (hcell : heap.cell? v = some cell)
    (hdeferred : cell.isDeferred = true) : later.cell? v = some cell := by
  refine h.stays hcell fun left hleaves => ?_
  cases hleaves <;> first | rfl | cases hdeferred

theorem Keeps.isDeferred (h : later.Keeps heap) (hv : heap.isDeferred v = true) :
    later.isDeferred v = true := by
  obtain ⟨cell, hcell, hdeferred⟩ := isDeferred_iff.mp hv
  exact isDeferred_iff.mpr ⟨cell, h.deferred hcell hdeferred, hdeferred⟩

theorem eq_ref_of_isDeferred (hv : heap.isDeferred v = true) : ∃ address, v = .ref address := by
  obtain ⟨cell, hcell, -⟩ := isDeferred_iff.mp hv
  cases v with
  | ref address => exact ⟨address, rfl⟩
  | _ => cases hcell

/-! ## Building -/

/-- What is deferred has no items. -/
theorem items_of_isDeferred (hv : heap.isDeferred v = true) :
    heap.items v = .error (.notIterable (heap.type v)) := by
  obtain ⟨cell, hcell, hdeferred⟩ := isDeferred_iff.mp hv
  obtain ⟨address, rfl⟩ := eq_ref_of_isDeferred hv
  cases cell <;> simp [Cell.isDeferred] at hdeferred <;> simp [items, items?, content, hcell]

theorem normalize_of_isDeferred (hv : heap.isDeferred v = true) :
    o.normalize heap v =
      if o = .secrets then .error (.notIterable (heap.type v)) else .ok v := by
  split
  · subst_vars
    simp only [EndpointOption.normalize, items_of_isDeferred hv]
    rfl
  · obtain ⟨address, rfl⟩ := eq_ref_of_isDeferred hv
    exact EndpointOption.normalize_of_other ‹_› nofun

theorem buildOption_of_isDeferred (hv : heap.isDeferred v = true) :
    buildOption heap (.text o.keyword) v =
      if o = .secrets then .error (.notIterable (heap.type v))
      else .ok (field o.manifestKey v) := by
  have hbuild : buildOption heap (.text o.keyword) v =
      (o.normalize heap v).map (field o.manifestKey) := by
    obtain ⟨address, rfl⟩ := eq_ref_of_isDeferred hv
    simp only [buildOption, EndpointOption.ofKeyword?_keyword]
    cases o.normalize heap (.ref address) <;> rfl
  rw [hbuild, normalize_of_isDeferred hv]
  split <;> rfl

theorem buildOptions_append (heap : Heap) (before after : Entries) :
    buildOptions heap (before ++ after) = do
      return (← buildOptions heap before) ++ (← buildOptions heap after) := by
  induction before with
  | nil =>
    cases hafter : buildOptions heap after <;>
      simp [buildOptions, hafter, bind, Except.bind, pure, Except.pure]
  | cons entry rest ih =>
    obtain ⟨keyword, v⟩ := entry
    rw [List.cons_append, buildOptions, buildOptions, ih]
    cases buildOption heap keyword v <;> cases buildOptions heap rest <;>
      cases buildOptions heap after <;>
      simp [bind, Except.bind, pure, Except.pure, List.append_assoc]

/-- Among other options what is deferred is kept, unless the secrets are deferred. -/
theorem buildOptions_of_isDeferred (hv : heap.isDeferred v = true)
    (hbefore : buildOptions heap before = .ok fields)
    (hafter : buildOptions heap after = .ok fields') :
    buildOptions heap (before ++ (.text o.keyword, v) :: after) =
      if o = .secrets then .error (.notIterable (heap.type v))
      else .ok (fields ++ (Text.ofString o.manifestKey, v) :: fields') := by
  rw [buildOptions_append, hbefore, buildOptions, buildOption_of_isDeferred hv, hafter]
  split <;> rfl

end Heap

variable {s t u : Session} {v w tree : Value} {a : Attachment} {o : EndpointOption}
  {result : Except Failure Value}

/-! ## Emitting -/

/-- What becomes of the text that was asked for. -/
theorem text_of_deferred {ask : Asking Eval} {e : Expression}
    (hrun : (do return .text (← e.deferredText ask) : Eval Value).on s = (result, t)) :
    ∃ text, (e.deferredText ask).on s = (text, t) ∧ result = text.map .text := by
  rw [on_bind] at hrun
  cases htext : (e.deferredText ask).on s with
  | mk text mid =>
    rw [htext] at hrun
    cases text <;> cases hrun <;> exact ⟨_, rfl, rfl⟩

theorem Session.Defers.eq_of_reset (h : s.Defers v result) (hcell : s.heap.cell? v = some .reset) :
    result = .ok .null := by
  cases h with
  | reset => rfl
  | param hparam => cases hcell.symm.trans hparam
  | formula hformula => cases hcell.symm.trans hformula

/-- However what is deferred was kept, it is emitted as what the deploy tool resolves. -/
theorem defers_of_emits (hv : s.heap.isDeferred v = true) (hu : s.ComesTo u)
    (h : u.Emits v result) : s.Defers v result := by
  obtain ⟨t, size, kept, ht, hkept, last, last', hlast, hrun⟩ := h
  obtain ⟨cell, hcell, hdeferred⟩ := Heap.isDeferred_iff.mp hv
  obtain ⟨address, rfl⟩ := Heap.eq_ref_of_isDeferred hv
  have hcomes := (hu.trans ht).trans hlast
  have hlater := hcomes.reaches.keeps.deferred hcell hdeferred
  rw [hkept.eq_of_isKept fun _ => rfl, Heap.setting, Heap.depth, Heap.settingFrom, hlater] at hrun
  cases cell with
  | reset =>
    cases hrun
    exact .reset hcell
  | param p =>
    obtain ⟨text, htext, rfl⟩ := text_of_deferred hrun
    exact .param hcell hcomes htext
  | formula f =>
    obtain ⟨text, htext, rfl⟩ := text_of_deferred hrun
    exact .formula hcell hcomes htext
  | _ => cases hdeferred

/-- A deferred value that was given for an option is what is built of the option. -/
theorem mem_options_of_isDeferred {fields options : Fields} {labels : Entries}
    (hv : s.heap.isDeferred v = true) (hu : s.ComesTo u)
    (hgiven : (Text.ofString o.keyword, v) ∈ a.keywords)
    (hparts : a.Parts u.heap fields labels options) :
    (Text.ofString o.manifestKey, v) ∈ options := by
  have hoption : (o, v) ∈ givenOptions a.keywords := by
    obtain ⟨address, rfl⟩ := Heap.eq_ref_of_isDeferred hv
    exact List.mem_filterMap.mpr ⟨_, hgiven, givenOption?_eq_some_iff.mpr ⟨rfl, nofun⟩⟩
  obtain ⟨field, hmem, hkey, hvalue⟩ := exists_right_of_forall₂ hparts.options hoption
  rw [Heap.normalize_of_isDeferred (hu.reaches.keeps.isDeferred hv)] at hvalue
  split at hvalue
  · cases hvalue
  · have hfield : field = (Text.ofString o.manifestKey, v) :=
      Prod.ext hkey (Except.ok.inj hvalue).symm
    rwa [← hfield]

/-- A deferred value is kept beside whatever options, unless it is given for the secrets. Then the
wire form of a function with it has, under the key of the option, null for a reset and the text of a
param or an expression, or a part of the endpoint cannot be converted. -/
theorem deferred_kept_iff (o : EndpointOption) (hv : s.heap.isDeferred v = true) :
    (∀ (before after : Entries) (fields fields' : Fields),
      buildOptions s.heap before = .ok fields → buildOptions s.heap after = .ok fields' →
      (buildOptions s.heap (before ++ (.text o.keyword, v) :: after) =
        .ok (fields ++ (Text.ofString o.manifestKey, v) :: fields') ↔ o ≠ .secrets)) ∧
    ∀ (a : Attachment) (w : Value) (t : Session) (adjustments : List Adjustment),
      s.Settled → (a.keywords.map Prod.fst).Nodup →
      (Text.ofString o.keyword, v) ∈ a.keywords → a.function.on s = (.ok w, t) →
      (∃ entries wired, ((adjustedWire adjustments w).on t).1 = .ok (.mapping entries) ∧
        (Value.text o.manifestKey, wired) ∈ entries ∧ s.Defers v (.ok wired)) ∨
      ∃ u fields labels options part failure,
        ((adjustedWire adjustments w).on t).1 = .error failure ∧ s.ComesTo u ∧
        a.Parts u.heap fields labels options ∧
        part ∈ attachedFields a.name.kind fields labels options ∧ u.Emits part.2 (.error failure) := by
  constructor
  · intro before after fields fields' hbefore hafter
    rw [Heap.buildOptions_of_isDeferred hv hbefore hafter]
    by_cases ho : o = .secrets <;> simp [ho]
  · intro a w t adjustments hsettled hkeywords hgiven hmade
    obtain ⟨u, fields, labels, options, hu, hparts, hemits⟩ :=
      emits_of_function hsettled hkeywords hmade adjustments
    have hoption := mem_options_of_isDeferred hv hu hgiven hparts
    generalize hresult : ((adjustedWire adjustments w).on t).1 = result at hemits ⊢
    cases hemits with
    | failed hpart hfails =>
      exact .inr ⟨u, fields, labels, options, _, _, rfl, hu, hparts, hpart, hfails⟩
    | emitted hapart hall =>
      obtain ⟨_, hentry, ⟨hvalue⟩⟩ := exists_right_of_forall₂ hall
        (List.mem_cons_of_mem _ (List.mem_cons_of_mem _ hoption))
      exact .inl ⟨_, _, rfl, List.mem_append_right _ hentry, defers_of_emits hv hu hvalue⟩

theorem buildOptions_secrets_reset :
    Heap.initial.isDeferred (Heap.constant .reset) = true ∧
      ∀ fields, buildOptions .initial
        [(.text EndpointOption.secrets.keyword, Heap.constant .reset)] ≠ .ok fields := by
  have hreset : Heap.initial.isDeferred (Heap.constant .reset) = true := by decide +kernel
  refine ⟨hreset, fun fields h => ?_⟩
  rw [buildOptions, Heap.buildOption_of_isDeferred hreset] at h
  cases h

/-- A function whose fewest instances are reset, between two other options. -/
def idle : Attachment where
  name := .request
  positional := []
  keywords := [("cpu", .int 1), ("min_instances", Heap.constant .reset), ("region", .text "asia")]
  invoke := .null

theorem deferred_kept_idle :
    buildOptions .initial [(.text "cpu", .int 1), (.text "min_instances", Heap.constant .reset),
      (.text "region", .text "asia")] =
      .ok [("cpu", .int 1), ("minInstances", Heap.constant .reset), ("region", .texts ["asia"])] ∧
    ∃ (w : Value) (t : Session) (entries : Entries),
      idle.function.on (.fresh default default) = (.ok w, t) ∧
      ((adjustedWire [] w).on t).1 = .ok (.mapping entries) ∧
      (.text "minInstances", .null) ∈ entries := by
  have hreset : (Session.fresh default default).heap.isDeferred (Heap.constant .reset) = true := by
    decide +kernel
  have hmade := Eval.eq_of_isOk
    (show (idle.function.on (.fresh default default)).1.isOk = true by decide +kernel) default
  have hwire : ((adjustedWire [] ((idle.function.on (.fresh default default)).1.toOption.getD
      default)).on (idle.function.on (.fresh default default)).2).1.isOk = true := by decide +kernel
  obtain ⟨hbuilt, hemitted⟩ := deferred_kept_iff .minInstances hreset
  refine ⟨(hbuilt [(.text "cpu", .int 1)] [(.text "region", .text "asia")] _ _ rfl rfl).mpr
    (by decide), ?_⟩
  obtain ⟨entries, wired, hrun, hmem, hwired⟩ | ⟨_, _, _, _, _, _, hrun, -⟩ :=
    hemitted idle _ _ [] (.fresh _ _) (by decide) (by simp [idle, EndpointOption.keyword]) hmade
  · cases hwired.eq_of_reset rfl
    exact ⟨_, _, entries, hmade, hrun, hmem⟩
  · rw [hrun] at hwire
    cases hwire

end FunctionManifest
