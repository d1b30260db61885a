import FunctionManifest.Proofs.Language.Asking
import FunctionManifest.Proofs.Trigger.Attaching
import FunctionManifest.Proofs.Wire.Layout

/-!
# Functions with triggers on the wire

What a deploy tool reads of a function that got a trigger: the endpoint with its entry point, its
platform, its labels and its trigger, and one entry for each option that was given.
-/

namespace FunctionManifest

open Eval

/-- A trigger with all that it is given, and what it is put on unless a function is given with it. -/
structure Attachment where
  name : TriggerName
  positional : List Value
  keywords : Fields
  invoke : Value
  deriving Inhabited

/-- What can be told of an endpoint later. -/
inductive Adjustment where
  | entryPoint (v : Value)
  | platform (v : Value)
  deriving Inhabited

namespace Adjustment

def method : Adjustment → String
  | .entryPoint _ => "with_entry_point"
  | .platform _ => "with_platform"

def value : Adjustment → Value
  | .entryPoint v | .platform v => v

def entryPoint? : Adjustment → Option Value
  | .entryPoint v => some v
  | .platform _ => none

def platform? : Adjustment → Option Value
  | .entryPoint _ => none
  | .platform v => some v

end Adjustment

/-- The endpoint is asked for another one each time. -/
def adjust (endpoint : Value) : List Adjustment → Eval Value
  | [] => return endpoint
  | adjustment :: rest => do
    adjust (← callAttribute call endpoint adjustment.method [adjustment.value]) rest

namespace Attachment

/-- The function with the trigger. -/
def function (a : Attachment) : Eval Value := do
  let made ← callBuiltin call (.trigger a.name) a.positional a.keywords
  match ← cell? made with
  | some (.trigger ..) => call made [a.invoke] []
  | _ => return made

end Attachment

/-- The wire form of a function's endpoint once it is adjusted. -/
def adjustedWire (adjustments : List Adjustment) (function : Value) : Eval Value := do
  let endpoint ← getAttribute call function "endpoint"
  endpointWire call (← adjust endpoint adjustments)

/-- The entry point that was told last. -/
def toldEntryPoint (adjustments : List Adjustment) : Value :=
  (adjustments.filterMap Adjustment.entryPoint?).getLast?.getD (.text [])

/-- The platform that was told last. -/
def toldPlatform (adjustments : List Adjustment) : Value :=
  (adjustments.filterMap Adjustment.platform?).getLast?.getD .null

def Endpoint.adjusted (e : Endpoint) (adjustments : List Adjustment) : Endpoint :=
  { e with
    entryPoint := (adjustments.filterMap Adjustment.entryPoint?).getLast?.getD e.entryPoint
    platform := (adjustments.filterMap Adjustment.platform?).getLast?.getD e.platform }

variable {s t u : Session} {a : Attachment} {adjustments : List Adjustment} {v w tree : Value}
  {e : Endpoint}

/-! ## Attaching -/

/-- Calling a trigger is attaching it. -/
theorem on_callValue_trigger {trigger : Trigger} {attributes : Fields}
    (h : s.heap.cell? v = some (.trigger trigger attributes)) (invoke : Value) :
    (call v [invoke] []).on s = (attach trigger invoke).on s := by
  have hbind : (decorator trigger.maker).bind [invoke] [] = .ok ⟨[("f", invoke)], [], []⟩ := rfl
  rw [call, callDepth, callValue, on_bind, on_cell?, next_ok, h]
  simp only [on_bind, on_ofExcept, hbind, next_ok]
  rfl

/-- The arguments are bound, the trigger is made, and the function gets it, unless it has it. -/
theorem function_eq_ok (hrun : a.function.on s = (.ok w, t)) :
    ∃ arguments made mid, a.name.signature.bind a.positional a.keywords = .ok arguments ∧
      (callTrigger call a.name arguments).on s = (.ok made, mid) ∧
      (∀ trigger, mid.heap.cell? made = some (.trigger trigger []) →
        (attach trigger a.invoke).on mid = (.ok w, t)) ∧
      ∀ f, mid.heap.cell? made = some (.function f) → w = made ∧ t = mid := by
  rw [Attachment.function, on_bind, next_eq_ok_iff] at hrun
  obtain ⟨made, mid, hmade, hrun⟩ := hrun
  rw [callBuiltin, on_bind, on_ofExcept, next_eq_ok_iff] at hmade
  obtain ⟨arguments, _, hbind, hmade⟩ := hmade
  rw [Prod.mk.injEq] at hbind
  obtain ⟨hbind, rfl⟩ := hbind
  rw [on_bind, on_cell?, next_ok] at hrun
  refine ⟨arguments, made, mid, hbind, hmade, fun trigger hcell => ?_, fun f hcell => ?_⟩
  · rw [hcell] at hrun
    exact (on_callValue_trigger hcell a.invoke).symm.trans hrun
  · rw [hcell] at hrun
    cases hrun
    exact ⟨rfl, rfl⟩

/-- The function was made by attaching a trigger of what was given. -/
theorem attach_of_function (hkeywords : (a.keywords.map Prod.fst).Nodup)
    (hrun : a.function.on s = (.ok w, t)) :
    ∃ (trigger : Trigger) (u : Session) (invoke : Value), trigger.Takes a.name a.keywords ∧
      s.ComesTo u ∧ (attach trigger invoke).on u = (.ok w, t) := by
  obtain ⟨arguments, made, mid, hbind, hmade, hkept, hdone⟩ := function_eq_ok hrun
  obtain ⟨trigger, u, htakes, hu, hallocate | ⟨invoke, hattach⟩⟩ :=
    made_of_callTrigger asksQuietly_call hkeywords hbind hmade
  · obtain ⟨-, hcell⟩ := makes_allocate _ u made mid (.refl _) hallocate
    exact ⟨trigger, mid, a.invoke, htakes, hu.after (within_allocate_unemptying rfl) hallocate,
      hkept trigger hcell⟩
  · obtain ⟨_, f, _, -, -, hcell, -, -⟩ := attach_eq_ok hattach
    obtain ⟨rfl, rfl⟩ := hdone f hcell
    exact ⟨trigger, u, invoke, htakes, hu, hattach⟩

/-! ## Adjusting -/

/-- A method that gives another endpoint adds that one, and is itself added before. -/
theorem on_asked {name : Text} {m : Method} {x : Value} {e' : Endpoint}
    (hmethod : s.heap.HasMethod v name m) (hname : name ≠ "clear")
    (hruns : ∀ asked : Session, asked.heap.cell? v = s.heap.cell? v →
      next (m.signature.bind [v, x] [], asked) (runMethod (callValue 899) m) =
        (allocate (.endpoint e')).on asked) (hcell : ∃ cell, s.heap.cell? v = some cell) :
    ∃ w t, (callAttribute call v name [x]).on s = (.ok w, t) ∧ s.ComesTo t ∧
      t.heap.Extends s.heap ∧ t.heap.cell? w = some (.endpoint e') := by
  let asked : Session := { s with heap := (s.heap.allocate (.method m (some v))).2 }
  have hext : asked.heap.Extends s.heap := Heap.extends_allocate _ _
  have hkept : asked.heap.cell? v = s.heap.cell? v := by
    obtain ⟨cell, hcell⟩ := hcell
    rw [hcell, hext _ _ hcell]
  have hrun : (callAttribute call v name [x]).on s = (allocate (.endpoint e')).on asked := by
    rw [call, callDepth, on_callAttribute_method hmethod]
    exact hruns asked hkept
  have hasked : s.ComesTo asked := by
    obtain ⟨_, -, h⟩ := Option.bind_eq_some_iff.mp hmethod.method
    exact allocated s (Cell.emptied?_of_method? hname h)
  exact ⟨_, _, hrun, hasked.trans (allocated asked rfl),
    (Heap.extends_allocate _ _).trans hext, Heap.cell?_allocate_new _ _⟩

/-- An endpoint is never refused another one. -/
theorem on_adjustment (hcell : s.heap.cell? v = some (.endpoint e)) (adjustment : Adjustment) :
    ∃ w t, (callAttribute call v adjustment.method [adjustment.value]).on s = (.ok w, t) ∧
      s.ComesTo t ∧ t.heap.Extends s.heap ∧
      t.heap.cell? w = some (.endpoint (e.adjusted [adjustment])) := by
  cases adjustment with
  | entryPoint x =>
    let arguments : Arguments := ⟨[("self", v), ("entry_point", x)], [], []⟩
    have hbind : Method.withEntryPoint.signature.bind [v, x] [] = .ok arguments := rfl
    have hself : arguments.get "self" = v := rfl
    have hpoint : arguments.get "entry_point" = x := rfl
    have hmethod : s.heap.HasMethod v "with_entry_point" .withEntryPoint :=
      .of_cell? hcell rfl rfl (by decide) (by rfl)
    have hname : Text.ofString "with_entry_point" ≠ "clear" := by decide
    refine on_asked hmethod hname (fun asked hkept => ?_) ⟨_, hcell⟩
    rw [Adjustment.value, hbind, next_ok]
    simp [runMethod, asEndpoint, hkept, hcell, hself, hpoint, Endpoint.adjusted,
      Adjustment.entryPoint?, Adjustment.platform?, Endpoint.withEntryPoint]
  | platform x =>
    let arguments : Arguments := ⟨[("self", v), ("platform", x)], [], []⟩
    have hbind : Method.withPlatform.signature.bind [v, x] [] = .ok arguments := rfl
    have hself : arguments.get "self" = v := rfl
    have hplatform : arguments.get "platform" = x := rfl
    have hmethod : s.heap.HasMethod v "with_platform" .withPlatform :=
      .of_cell? hcell rfl rfl (by decide) (by rfl)
    have hname : Text.ofString "with_platform" ≠ "clear" := by decide
    refine on_asked hmethod hname (fun asked hkept => ?_) ⟨_, hcell⟩
    rw [Adjustment.value, hbind, next_ok]
    simp [runMethod, asEndpoint, hkept, hcell, hself, hplatform, Endpoint.adjusted,
      Adjustment.entryPoint?, Adjustment.platform?, Endpoint.withPlatform]

theorem adjusted_cons (e : Endpoint) (adjustment : Adjustment) (rest : List Adjustment) :
    e.adjusted (adjustment :: rest) = (e.adjusted [adjustment]).adjusted rest := by
  cases adjustment <;> simp [Endpoint.adjusted, Adjustment.entryPoint?, Adjustment.platform?,
    List.getLast?_cons]

/-- Whatever is told of it, an endpoint stays what it is, and the last one has what was told. -/
theorem on_adjust (hcell : s.heap.cell? v = some (.endpoint e)) (adjustments : List Adjustment) :
    ∃ w t, (adjust v adjustments).on s = (.ok w, t) ∧ s.ComesTo t ∧ t.heap.Extends s.heap ∧
      t.heap.cell? w = some (.endpoint (e.adjusted adjustments)) := by
  induction adjustments generalizing s v e with
  | nil => exact ⟨v, s, rfl, .refl s, .refl _, hcell⟩
  | cons adjustment rest ih =>
    obtain ⟨next, u, happly, hu, hext, hnext⟩ := on_adjustment hcell adjustment
    obtain ⟨w, t, hrun, ht, hext', hlast⟩ := ih hnext
    refine ⟨w, t, ?_, hu.trans ht, hext'.trans hext, ?_⟩
    · rw [adjust, on_bind, happly, next_ok, hrun]
    · rw [adjusted_cons]
      exact hlast

/-! ## Wire forms -/

/-- The value is kept, and later converting it ends so. -/
def Session.Emits (s : Session) (v : Value) (result : Except Failure Value) : Prop :=
  ∃ t size kept, s.ComesTo t ∧ s.heap.Interns t.heap size v kept ∧ t.Wires call kept result

/-- A field and the entry under its name, with values that are related. -/
inductive AtText (R : Value → Value → Prop) : Text × Value → Value × Value → Prop
  | intro {key : Text} {v w : Value} (value : R v w) : AtText R (key, v) (.text key, w)

/-- What an endpoint begins with on the wire: what was told of it. -/
def toldFields (adjustments : List Adjustment) : Entries :=
  (.text "entryPoint", toldEntryPoint adjustments) ::
    ((toldPlatform adjustments).given?.map fun v => (Value.text "platform", v)).toList

/-- The labels, the trigger under its kind, and the options. -/
def attachedFields (kind : TriggerKind) (fields : Fields) (labels : Entries) (options : Fields) :
    Fields :=
  (Text.ofString "labels", .mapping labels) :: (Text.ofString kind.key, .named fields) :: options

/-- Either everything is emitted behind what was told, each under a key of its own, or a part cannot
be converted. -/
inductive Session.EmitsAll (s : Session) (adjustments : List Adjustment) (fields : Fields) :
    Except Failure Value → Prop
  | emitted {wired : Entries} (apart : ((toldFields adjustments ++ wired).map Prod.fst).Nodup)
      (emits : List.Forall₂ (AtText fun v tree => s.Emits v (.ok tree)) fields wired) :
      EmitsAll s adjustments fields (.ok (.mapping (toldFields adjustments ++ wired)))
  | failed {field : Text × Value} {failure : Failure} (mem : field ∈ fields)
      (emits : s.Emits field.2 (.error failure)) : EmitsAll s adjustments fields (.error failure)

theorem AtText.eq {R : Value → Value → Prop} {field : Text × Value} {entry : Value × Value}
    (h : AtText R field entry) : entry.1 = .text field.1 ∧ R field.2 entry.2 := by
  cases h with
  | intro value => exact ⟨rfl, value⟩

theorem keys_of_atText {R : Value → Value → Prop} {fields : Fields} {entries : Entries}
    (h : List.Forall₂ (AtText R) fields entries) :
    entries.map Prod.fst = (fields.map Prod.fst).map Value.text := by
  induction h with
  | nil => rfl
  | cons hfirst _ ih =>
    rw [List.map_cons, List.map_cons, List.map_cons, ih, hfirst.eq.1]

/-- A key of the endpoint's own is no key of an option. -/
theorem manifestKey_ne_own (o : EndpointOption) (kind : TriggerKind) :
    Text.ofString o.manifestKey ∉
      [Text.ofString "entryPoint", "platform", "labels", kind.key] := by
  cases o <;> cases kind <;> decide

theorem nodup_own (kind : TriggerKind) :
    [Text.ofString "entryPoint", "platform", "labels", kind.key].Nodup := by
  cases kind <;> decide

theorem Session.ComesTo.size_le (h : s.ComesTo u) : s.heap.cells.size ≤ u.heap.cells.size :=
  h.reaches.keeps.size_le

theorem Heap.Interns.fresh {old new : Heap} {size : Nat} {entries : Entries}
    (h : old.Interns new size (.mapping entries) w) :
    ∃ address, w = .ref address ∧ old.cells.size ≤ address := by
  obtain ⟨heap, hold, -, -, rfl⟩ := h
  exact ⟨_, rfl, Nat.le_trans hold.size_le (extends_internEntries heap entries).size_le⟩

/-- Fields are kept in a new mapping, each value by itself. -/
theorem Heap.Interns.named {old new : Heap} {size : Nat} {fields : Fields}
    (h : old.Interns new size (.named fields) w) :
    ∃ entries, new.HasNew old.cells.size w entries ∧
      List.Forall₂ (AtText fun v w => ∃ size, old.Interns new size v w) fields entries := by
  have hkeys : ∀ entry ∈ fields.map fun field => (Value.text field.1, field.2), entry.1.IsKept := by
    intro entry hentry
    obtain ⟨field, -, rfl⟩ := List.mem_map.mp hentry
    exact fun _ => rfl
  obtain ⟨address, hw, hfresh⟩ := h.fresh
  obtain ⟨_, entries, -, -, hcell, hentries⟩ := h.mapping hkeys
  refine ⟨entries, ⟨address, hw, hfresh, hcell⟩, ?_⟩
  refine (List.forall₂_map_left_iff.mp hentries).imp fun field entry h => ?_
  cases h with
  | intro h => exact .intro ⟨_, h⟩

/-- What comes before the options has keys of the endpoint's own. -/
theorem Endpoint.own_sublist (e : Endpoint) :
    ((e.leading ++ [(Value.text "labels", e.labels), (Value.text e.kind.key, e.trigger)]).map
      Prod.fst).Sublist
      ([Text.ofString "entryPoint", "platform", "labels", e.kind.key].map Value.text) := by
  unfold leading
  cases e.platform.given? <;> simp

theorem apart_of_keys {options : Entries} {keys : List Text}
    (hoptions : options.map Prod.fst = keys.map Value.text) (hnodup : keys.Nodup)
    (hnames : ∀ key ∈ keys, ∃ o : EndpointOption, key = o.manifestKey) :
    ((e.leading ++ (.text "labels", e.labels) :: (.text e.kind.key, e.trigger) :: options).map
      Prod.fst).Nodup := by
  have hinj : Function.Injective Value.text := fun _ _ h => Value.text.inj h
  have hown := (nodup_own e.kind).map hinj
  have hsplit : e.leading ++ (Value.text "labels", e.labels) :: (.text e.kind.key, e.trigger) ::
      options = (e.leading ++ [(Value.text "labels", e.labels), (.text e.kind.key, e.trigger)]) ++
        options := by simp
  rw [hsplit, List.map_append, hoptions, List.nodup_append]
  refine ⟨hown.sublist e.own_sublist, hnodup.map hinj, fun key hkey other hother => ?_⟩
  rintro rfl
  obtain ⟨name, hname, rfl⟩ := List.mem_map.mp hother
  obtain ⟨o, rfl⟩ := hnames name hname
  have hmem := e.own_sublist.subset hkey
  exact manifestKey_ne_own o e.kind ((List.mem_map_of_injective hinj).mp hmem)

/-- A function that got a trigger is emitted with it, whatever is told of its endpoint later. -/
theorem emits_of_attach {trigger : Trigger} {invoke : Value} {size : Nat}
    (hattach : (attach trigger invoke).on s = (.ok w, u))
    (hclears : s.heap.clearsBelow size = true) (hsize : size ≤ s.heap.cells.size)
    (hnodup : ((givenOptions trigger.options).map fun o => Text.ofString o.1.manifestKey).Nodup)
    (adjustments : List Adjustment) :
    ∃ fields labels options, trigger.Describes s.heap fields labels options ∧
      s.EmitsAll adjustments (attachedFields trigger.payload.kind fields labels options)
        ((adjustedWire adjustments w).on u).1 := by
  have hu : s.ComesTo u := (Session.ComesTo.refl s).after (within_attach trigger invoke) hattach
  obtain ⟨e, f, kept, he, hext, hfunction, hendpoint, hkeeps⟩ := attach_eq_ok hattach
  obtain ⟨fields, labels, built, hdescribes, rfl⟩ := describes_of_endpoint he
  refine ⟨fields, labels, built, hdescribes, ?_⟩
  have hget : (getAttribute call w "endpoint").on u = (.ok f.endpoint, u) :=
    on_getAttribute_stored (Heap.stored?_of_cell? hfunction rfl)
  obtain ⟨last, mid, hadjust, hmid, hextMid, hlast⟩ := on_adjust hendpoint adjustments
  have hkeeps := hkeeps.mono hextMid
  obtain ⟨_, hlabels⟩ := hkeeps.labels
  obtain ⟨_, htrigger⟩ := hkeeps.trigger
  obtain ⟨_, hoptions⟩ := hkeeps.options
  obtain ⟨options, hnew, hentries⟩ := hoptions.named
  -- The options stand in an object that is new and cannot be emptied.
  have hkeysBuilt := keys_of_builds hdescribes.built
  have hkeepsOptions : mid.heap.KeepsOptions (kept.adjusted adjustments) options := by
    refine ⟨fun option hoption => ?_, ?_, size, ?_, hnew.of_le hsize⟩
    · obtain ⟨_, -, ⟨-⟩⟩ := exists_left_of_forall₂ hentries hoption
      exact ⟨_, rfl⟩
    · refine apart_of_keys (keys_of_atText hentries) (hkeysBuilt ▸ hnodup) fun key hkey => ?_
      rw [hkeysBuilt] at hkey
      obtain ⟨o, -, rfl⟩ := List.mem_map.mp hkey
      exact ⟨o.1, rfl⟩
    · exact ((hu.trans hmid).leavesNew size hclears).1
  -- What is converted was kept when the trigger was attached.
  have hconverted : List.Forall₂ (AtText fun v w => ∃ size, s.heap.Interns mid.heap size v w)
      (attachedFields trigger.payload.kind fields labels built)
      ((kept.adjusted adjustments).converted options) := by
    have hkind : (kept.adjusted adjustments).kind = trigger.payload.kind := hkeeps.kind
    rw [Endpoint.converted, hkind]
    exact .cons (.intro ⟨_, hlabels⟩) (.cons (.intro ⟨_, htrigger⟩) hentries)
  have hleading : (kept.adjusted adjustments).leading = toldFields adjustments := by
    rw [Endpoint.leading, Endpoint.adjusted, hkeeps.entryPoint, hkeeps.platform]
    rfl
  rw [adjustedWire, on_bind, hget, next_ok, on_bind, hadjust, next_ok,
    on_endpointWire asksQuietly_call hlast hkeepsOptions, hleading]
  cases hrun : (wireFields call ((kept.adjusted adjustments).converted options)).on mid with
  | mk result last =>
    have hwires := wires_of_wireFields asksQuietly_call hrun
    cases result with
    | ok wired =>
      refine .emitted ?_ (forall₂_comp_of hconverted hwires fun _ _ _ _ hkept hwired => ?_)
      · have hapart := hkeepsOptions.apart
        rwa [hleading, List.map_append, ← Endpoint.converted, ← keys_of_atKey hwires,
          ← List.map_append] at hapart
      · cases hkept with
        | intro hkept =>
          cases hwired with
          | intro hwired =>
            obtain ⟨_, hkept⟩ := hkept
            exact .intro ⟨mid, _, _, hu.trans hmid, hkept, hwired⟩
    | error failure =>
      obtain ⟨entry, hentry, hwires⟩ := hwires
      obtain ⟨_, hfield, ⟨_, hkept⟩⟩ := exists_left_of_forall₂ hconverted hentry
      exact .failed hfield ⟨mid, _, _, hu.trans hmid, hkept, hwires⟩

/-- The trigger stands under its own kind only. -/
theorem kind_mem_attachedFields {heap : Heap} {given : List (EndpointOption × Value)}
    {fields options : Fields} {labels : Entries} (hoptions : List.Forall₂ heap.Builds given options)
    (kind other : TriggerKind) :
    Text.ofString other.key ∈ (attachedFields kind fields labels options).map Prod.fst ↔
      other = kind := by
  have hoption : Text.ofString other.key ∉ options.map Prod.fst := by
    rw [keys_of_builds hoptions]
    intro hmem
    obtain ⟨option, -, hkey⟩ := List.mem_map.mp hmem
    exact manifestKey_ne_own option.1 other (by simp [hkey])
  have hlabels : Text.ofString other.key ≠ "labels" := by cases other <;> decide
  have hkinds : Text.ofString other.key = kind.key ↔ other = kind := by
    cases other <;> cases kind <;> decide
  simp only [attachedFields, List.map_cons, List.mem_cons, hoption, hlabels, hkinds, false_or,
    or_false]

/-- What a function with the trigger is emitted with, as it is made of what was given where these are
the objects. -/
structure Attachment.Parts (a : Attachment) (heap : Heap) (fields : Fields) (labels : Entries)
    (options : Fields) : Prop where
  payload : ∃ payload : Payload, payload.kind = a.name.kind ∧ payload.fields heap = .ok fields
  labels : labelEntries heap (givenLabels a.keywords) = .ok labels
  options : List.Forall₂ heap.Builds (givenOptions a.keywords) options

theorem emits_of_function (hsettled : s.Settled) (hkeywords : (a.keywords.map Prod.fst).Nodup)
    (hmade : a.function.on s = (.ok w, t)) (adjustments : List Adjustment) :
    ∃ u fields labels options, s.ComesTo u ∧ a.Parts u.heap fields labels options ∧
      u.EmitsAll adjustments (attachedFields a.name.kind fields labels options)
        ((adjustedWire adjustments w).on t).1 := by
  obtain ⟨trigger, u, invoke, htakes, hu, hattach⟩ := attach_of_function hkeywords hmade
  have hnodup := nodup_manifestKeys hkeywords
  rw [← htakes.options] at hnodup
  obtain ⟨fields, labels, options, ⟨hpayload, hgiven, hbuilt⟩, hemits⟩ := emits_of_attach hattach
    (hu.leavesNew _ hsettled).1 hu.size_le hnodup adjustments
  rw [htakes.labels] at hgiven
  rw [htakes.options] at hbuilt
  rw [htakes.kind] at hemits
  exact ⟨u, fields, labels, options, hu, ⟨⟨_, htakes.kind, hpayload⟩, hgiven, hbuilt⟩, hemits⟩

/-- Whichever function makes the trigger, and whatever is told of the endpoint later, its wire form
has what was told, the labels, the trigger under its kind and each option that was given, in the order
in which they were given, and no entry takes the place of another. The conversion fails only if one
of these cannot be converted. -/
theorem Attachment.wire_fields (hsettled : s.Settled) (hkeywords : (a.keywords.map Prod.fst).Nodup)
    (hmade : a.function.on s = (.ok w, t)) (adjustments : List Adjustment) :
    ∃ (u : Session) (fields : Fields) (labels : Entries) (options : Fields), s.ComesTo u ∧
      a.Parts u.heap fields labels options ∧
      u.EmitsAll adjustments (attachedFields a.name.kind fields labels options)
        ((adjustedWire adjustments w).on t).1 ∧
      ∀ kind : TriggerKind, Text.ofString kind.key ∈
        (attachedFields a.name.kind fields labels options).map Prod.fst ↔ kind = a.name.kind := by
  obtain ⟨u, fields, labels, options, hu, hparts, hemits⟩ :=
    emits_of_function hsettled hkeywords hmade adjustments
  exact ⟨u, fields, labels, options, hu, hparts, hemits,
    kind_mem_attachedFields hparts.options a.name.kind⟩

/-- A scheduled function, with options in an order of their own. One of them says nothing. -/
def nightly : Attachment where
  name := .schedule
  positional := [.text "every night"]
  keywords := [("memory", .int 512), ("labels", .null), ("region", .text "europe-west1"),
    ("cpu", .null), ("secrets", .texts ["TOKEN"])]
  invoke := .null

theorem Attachment.wire_fields_nightly :
    ∃ (w : Value) (t u : Session) (fields : Fields) (labels : Entries) (options : Fields),
      nightly.function.on (.fresh default default) = (.ok w, t) ∧
      List.Forall₂ u.heap.Builds [(.memory, .int 512), (.region, .text "europe-west1"),
        (.secrets, .texts ["TOKEN"])] options ∧
      u.EmitsAll [.entryPoint (.text "nightly")] (attachedFields .schedule fields labels options)
        ((adjustedWire [.entryPoint (.text "nightly")] w).on t).1 := by
  have hmade := Eval.eq_of_isOk
    (show (nightly.function.on (.fresh default default)).1.isOk = true by decide +kernel) default
  obtain ⟨u, fields, labels, options, -, hparts, hemits, -⟩ :=
    Attachment.wire_fields (.fresh _ _) (by decide) hmade [.entryPoint (.text "nightly")]
  exact ⟨_, _, u, fields, labels, options, hmade, hparts.options, hemits⟩

end FunctionManifest
