import FunctionManifest.Language.Call
import FunctionManifest.Proofs.Language.Binding
import FunctionManifest.Proofs.Language.Frame
import FunctionManifest.Proofs.Manifest.RequiredApi
import FunctionManifest.Proofs.Trigger.Options
import FunctionManifest.Proofs.Wire.Kept
import FunctionManifest.Proofs.Wire.Sparing

/-!
# Attaching triggers to functions

Whichever way a function gets its trigger, in the end the trigger is attached to it, with the options
and the labels that were given by keyword. The endpoint that is made has new objects for its parts.
-/

namespace FunctionManifest

open Eval

/-- The kind of the triggers that a function makes. -/
def TriggerName.kind : TriggerName → TriggerKind
  | .request => .https
  | .call => .callable
  | .schedule => .schedule
  | .event | .message | .storage => .event

/-- The labels that are given, or null. -/
def givenLabels (keywords : Fields) : Value := (Assoc.get? keywords "labels").getD .null

/-- The trigger is one that a function with this name makes of the keywords. -/
structure Trigger.Takes (trigger : Trigger) (name : TriggerName) (keywords : Fields) : Prop where
  kind : trigger.payload.kind = name.kind
  options : givenOptions trigger.options = givenOptions keywords
  labels : trigger.labels = givenLabels keywords

variable {name : TriggerName} {positional : List Value} {keywords extra : Fields}
  {arguments : Arguments} {trigger : Trigger} {invoke v w : Value} {s t u : Session}

/-! ## Keywords -/

theorem isParameter_keyword (name : TriggerName) (o : EndpointOption) :
    name.signature.isParameter o.keyword = false := by
  cases name <;> cases o <;> decide

/-- The options are among the keywords that are left over. -/
theorem givenOptions_extra (name : TriggerName) (keywords : Fields) :
    givenOptions (keywords.filter fun keyword => !name.signature.isParameter keyword.1) =
      givenOptions keywords := by
  refine givenOptions_filter fun keyword _ o hkeyword => ?_
  rw [hkeyword, isParameter_keyword]
  rfl

theorem Assoc.get?_filter {α β : Type} [BEq α] [LawfulBEq α] {p : α × β → Bool} {key : α}
    (h : ∀ value, p (key, value) = true) (entries : List (α × β)) :
    Assoc.get? (entries.filter p) key = Assoc.get? entries key := by
  simp only [Assoc.get?, Assoc.lookBy, List.find?_filter]
  congr 2
  funext entry
  by_cases hkey : entry.1 = key
  · subst hkey
    simp [h entry.2]
  · simp [hkey]

theorem givenLabels_extra {name : TriggerName} (h : name = .message ∨ name = .storage)
    (keywords : Fields) :
    givenLabels (keywords.filter fun keyword => !name.signature.isParameter keyword.1) =
      givenLabels keywords := by
  have hlabels : name.signature.isParameter "labels" = false := by
    rcases h with rfl | rfl <;> decide
  rw [givenLabels, Assoc.get?_filter fun _ => by rw [hlabels]; rfl]
  rfl

/-- What a trigger that takes labels by itself makes of its keywords. -/
theorem takes_newTrigger {payload : Payload} {apis : Value} (hkind : payload.kind = name.kind)
    (hlabels : "labels" ∈ name.signature.keywords)
    (hkeywords : (keywords.map Prod.fst).Nodup)
    (hbind : name.signature.bind positional keywords = .ok arguments) :
    (newTrigger name payload arguments apis).Takes name keywords where
  kind := hkind
  options := by
    rw [newTrigger, extra_of_bind hkeywords hbind]
    exact givenOptions_extra name keywords
  labels := by
    have hnamed : Text.ofString "labels" ∉ name.signature.named.map Text.ofString := by
      cases name <;> decide
    exact congrArg (Option.getD · .null) (get?_of_bind hlabels hnamed hbind)

/-- The arguments of an event that are made of further ones. -/
theorem takes_eventArguments {type : String} {fields : Fields} {payload : Payload} {apis : Value}
    (hkind : payload.kind = .event)
    (hnames : fields.map Prod.fst = [Text.ofString "filters", "retry"] ∨
      fields.map Prod.fst = [Text.ofString "filters", "retry", "required_apis"])
    (hextra : (extra.map Prod.fst).Nodup)
    (hbind : eventArguments type fields extra = .ok arguments) :
    (newTrigger .event payload arguments apis).Takes .event extra := by
  unfold eventArguments at hbind
  split at hbind
  · cases hbind
  · rename_i hfind
    have hapart : ∀ option ∈ extra, option.1 ∉ fields.map Prod.fst := by
      intro option hoption
      rw [← Assoc.contains_eq_false_iff]
      simpa using List.find?_eq_none.mp hfind option hoption
    have hkeywords : ((fields ++ extra).map Prod.fst).Nodup := by
      rw [List.map_append, List.nodup_append]
      refine ⟨?_, hextra, fun key hkey other hother => ?_⟩
      · rcases hnames with h | h <;> rw [h] <;> decide
      · rintro rfl
        obtain ⟨option, hoption, rfl⟩ := List.mem_map.mp hother
        exact hapart option hoption hkey
    have htakes : (newTrigger .event payload arguments apis).Takes .event (fields ++ extra) :=
      takes_newTrigger hkind (by decide) hkeywords hbind
    have hoptions : givenOptions fields = [] := by
      refine List.filterMap_eq_nil_iff.mpr fun field hfield => ?_
      by_contra hgiven
      obtain ⟨option, hoption⟩ := Option.ne_none_iff_exists'.mp hgiven
      obtain ⟨hkeyword, -⟩ := givenOption?_eq_some_iff.mp hoption
      have hmem := List.mem_map_of_mem (f := Prod.fst) hfield
      have hnone : ∀ o : EndpointOption,
          Text.ofString o.keyword ∉ [Text.ofString "filters", "retry", "required_apis"] := by
        intro o
        cases o <;> decide
      rw [hkeyword] at hmem
      refine hnone option.1 ?_
      rcases hnames with h | h <;> rw [h] at hmem <;> grind
    have hlabels : Assoc.get? fields "labels" = none := by
      rw [Assoc.get?_eq_none_iff]
      rcases hnames with h | h <;> rw [h] <;> decide
    refine ⟨htakes.kind, htakes.options.trans ?_, htakes.labels.trans ?_⟩
    · rw [givenOptions, List.filterMap_append]
      exact congrArg (· ++ _) hoptions
    · rw [givenLabels, Assoc.get?_append, hlabels, Option.none_or]
      rfl

/-- What a trigger takes that hands all it is given on to an event. -/
theorem Trigger.Takes.of_event (hname : name = .message ∨ name = .storage)
    (h : trigger.Takes .event (keywords.filter fun keyword => !name.signature.isParameter keyword.1)) :
    trigger.Takes name keywords where
  kind := by rcases hname with rfl | rfl <;> exact h.kind
  options := h.options.trans (givenOptions_extra name keywords)
  labels := h.labels.trans (givenLabels_extra hname keywords)

/-! ## Making triggers -/

/-- The event of these filters, once they are split and kept. -/
def eventOf (arguments : Arguments) (exact patterns : Value) : Trigger :=
  newTrigger .event
    (.event (arguments.get "event_type") exact patterns (arguments.get "channel")
      (arguments.get "event_region") ((arguments.get? "retry").getD (.bool false)))
    arguments ((arguments.get? "required_apis").getD Heap.emptyTuple)

theorem eventTrigger_eq_ok {call : Caller}
    (hrun : (eventTrigger call arguments).on s = (.ok trigger, t)) :
    ∃ split u u' exact patterns,
      (if s.heap.isTruthy (arguments.get "filters") then
          fromEntries call (arguments.get "filters") fun heap entries =>
            .ok (splitFilters heap entries)
        else pure ([], []) : Eval (Entries × Entries)).on s = (.ok split, u) ∧
      (intern (.mapping split.1)).on u = (.ok exact, u') ∧
      (intern (.mapping split.2)).on u' = (.ok patterns, t) ∧
      trigger = eventOf arguments exact patterns := by
  unfold eventTrigger at hrun
  rw [on_bind, on_heap, next_ok] at hrun
  split at hrun <;> simp only [on_bind, next_eq_ok_iff] at hrun <;>
    obtain ⟨split, u, hsplit, exact, u', hexact, patterns, u'', hpatterns, hrun⟩ := hrun <;>
    cases hrun <;>
    exact ⟨split, u, u', exact, patterns, by simp [*], hexact, hpatterns, rfl⟩

theorem filterField_eq_ok {name : String} {fields : Fields}
    (hrun : (filterField name v).on s = (.ok fields, t)) : ∃ w, fields = field "filters" w := by
  rw [filterField, on_bind, next_eq_ok_iff] at hrun
  obtain ⟨w, u, -, hrun⟩ := hrun
  cases hrun
  exact ⟨w, rfl⟩

/-- The trigger is kept for a function, or attached to one. -/
def Trigger.Made (trigger : Trigger) (s : Session) (w : Value) (t : Session) : Prop :=
  (allocate (.trigger trigger [])).on s = (.ok w, t) ∨
    ∃ invoke, (attach trigger invoke).on s = (.ok w, t)

theorem made_of_decorateOr (hrun : (decorateOr trigger invoke).on s = (.ok w, t)) :
    trigger.Made s w t := by
  cases invoke with
  | null => exact .inl hrun
  | _ => exact .inr ⟨_, hrun⟩

theorem made_of_eventTrigger {call : Caller} (hcall : AsksQuietly Session.ComesTo call)
    (htakes : ∀ payload apis, payload.kind = .event →
      (newTrigger .event payload arguments apis).Takes name keywords)
    (hrun : (eventTrigger call arguments >>= fun trigger => allocate (.trigger trigger [])).on s =
      (.ok w, t)) :
    ∃ (trigger : Trigger) (u : Session), trigger.Takes name keywords ∧ s.ComesTo u ∧
      trigger.Made u w t := by
  rw [on_bind, next_eq_ok_iff] at hrun
  obtain ⟨trigger, u, htrigger, hrun⟩ := hrun
  have hu : s.ComesTo u := (Session.ComesTo.refl s).after (within_eventTrigger hcall _) htrigger
  obtain ⟨_, _, _, _, _, -, -, -, rfl⟩ := eventTrigger_eq_ok htrigger
  exact ⟨_, u, htakes _ _ rfl, hu, .inl hrun⟩

/-- Every function that makes triggers makes one of what it is given. -/
theorem made_of_callTrigger {call : Caller} (hcall : AsksQuietly Session.ComesTo call)
    (hkeywords : (keywords.map Prod.fst).Nodup)
    (hbind : name.signature.bind positional keywords = .ok arguments)
    (hrun : (callTrigger call name arguments).on s = (.ok w, t)) :
    ∃ (trigger : Trigger) (u : Session), trigger.Takes name keywords ∧ s.ComesTo u ∧
      trigger.Made u w t := by
  have hextra := extra_of_bind hkeywords hbind
  have hnodup : (arguments.extra.map Prod.fst).Nodup := by
    rw [hextra]
    exact hkeywords.sublist (List.filter_sublist.map Prod.fst)
  unfold callTrigger at hrun
  cases name with
  | request =>
    exact ⟨_, s, takes_newTrigger rfl (by decide) hkeywords hbind, .refl s, made_of_decorateOr hrun⟩
  | call =>
    exact ⟨_, s, takes_newTrigger rfl (by decide) hkeywords hbind, .refl s, made_of_decorateOr hrun⟩
  | schedule =>
    simp only [on_bind, next_eq_ok_iff] at hrun
    obtain ⟨retries, u, hretries, apis, u', hapis, hrun⟩ := hrun
    have hu : s.ComesTo u := (Session.ComesTo.refl s).after (within_intern _) hretries
    have hu' : s.ComesTo u' := hu.after (within_intern _) hapis
    exact ⟨_, u', takes_newTrigger rfl (by decide) hkeywords hbind, hu', .inl hrun⟩
  | event =>
    exact made_of_eventTrigger hcall
      (fun payload apis hkind => takes_newTrigger hkind (by decide) hkeywords hbind) hrun
  | message =>
    rw [on_bind, next_eq_ok_iff] at hrun
    obtain ⟨filters, u, hfilters, hrun⟩ := hrun
    rw [on_bind, next_eq_ok_iff] at hrun
    obtain ⟨apis, u', hapis, hrun⟩ := hrun
    rw [on_bind, on_ofExcept, next_eq_ok_iff] at hrun
    obtain ⟨given, _, hgiven, hrun⟩ := hrun
    rw [Prod.mk.injEq] at hgiven
    obtain ⟨hgiven, rfl⟩ := hgiven
    have hu : s.ComesTo u := (Session.ComesTo.refl s).after (within_filterField _ _) hfilters
    have hu' : s.ComesTo u' := hu.after (within_intern _) hapis
    obtain ⟨w, rfl⟩ := filterField_eq_ok hfilters
    obtain ⟨trigger, last, htakes, hlast, hmade⟩ := made_of_eventTrigger hcall
      (fun payload apis hkind => takes_eventArguments hkind (.inr rfl) hnodup hgiven) hrun
    rw [hextra] at htakes
    exact ⟨trigger, last, htakes.of_event (.inl rfl), hu'.trans hlast, hmade⟩
  | storage =>
    rw [on_bind, next_eq_ok_iff] at hrun
    obtain ⟨filters, u, hfilters, hrun⟩ := hrun
    rw [on_bind, on_ofExcept, next_eq_ok_iff] at hrun
    obtain ⟨given, _, hgiven, hrun⟩ := hrun
    rw [Prod.mk.injEq] at hgiven
    obtain ⟨hgiven, rfl⟩ := hgiven
    have hu : s.ComesTo u := (Session.ComesTo.refl s).after (within_filterField _ _) hfilters
    obtain ⟨w, rfl⟩ := filterField_eq_ok hfilters
    obtain ⟨trigger, last, htakes, hlast, hmade⟩ := made_of_eventTrigger hcall
      (fun payload apis hkind => takes_eventArguments hkind (.inl rfl) hnodup hgiven) hrun
    rw [hextra] at htakes
    exact ⟨trigger, last, htakes.of_event (.inr rfl), hu.trans hlast, hmade⟩

/-! ## Endpoints -/

/-- What is made of the trigger's payload, its labels and its options where these are the objects. -/
structure Trigger.Describes (trigger : Trigger) (heap : Heap) (fields : Fields) (labels : Entries)
    (options : Fields) : Prop where
  payload : trigger.payload.fields heap = .ok fields
  given : labelEntries heap trigger.labels = .ok labels
  built : List.Forall₂ heap.Builds (givenOptions trigger.options) options

theorem TriggerKind.ofValue_key (heap : Heap) (kind : TriggerKind) :
    ofValue heap (.text kind.key) = .ok kind := by
  have hfound : ofKey? (Text.ofString kind.key) = some kind := by
    cases kind <;> decide
  simp [ofValue, Heap.checkKey_text, hfound, bind, Except.bind, pure, Except.pure]

theorem describes_of_endpoint {heap : Heap} {e : Endpoint} (h : trigger.endpoint heap = .ok e) :
    ∃ fields labels options, trigger.Describes heap fields labels options ∧
      e = ⟨trigger.payload.kind, .named fields, .text [], .null, .mapping labels, .named options⟩ := by
  obtain ⟨fields, hfields, h⟩ := bind_eq_ok_iff.mp h
  obtain ⟨entries, hentries, h⟩ := bind_eq_ok_iff.mp h
  obtain ⟨labels, hlabels, h⟩ := bind_eq_ok_iff.mp h
  obtain ⟨options, hoptions, h⟩ := bind_eq_ok_iff.mp h
  obtain ⟨kind, hkind, h⟩ := bind_eq_ok_iff.mp h
  rw [TriggerKind.ofValue_key] at hkind
  cases hkind
  cases hentries
  cases h
  exact ⟨fields, labels, options, ⟨hfields, hlabels, forall₂_of_buildOptions hoptions⟩, rfl⟩

/-- The endpoint as it is kept, with new objects for its parts. -/
structure Heap.KeepsEndpoint (old new : Heap) (e kept : Endpoint) : Prop where
  kind : kept.kind = e.kind
  entryPoint : kept.entryPoint = e.entryPoint
  platform : kept.platform = e.platform
  labels : ∃ size, old.Interns new size e.labels kept.labels
  trigger : ∃ size, old.Interns new size e.trigger kept.trigger
  options : ∃ size, old.Interns new size e.options kept.options

theorem Heap.KeepsEndpoint.mono {old new later : Heap} {e kept : Endpoint}
    (h : old.KeepsEndpoint new e kept) (hlater : later.Extends new) :
    old.KeepsEndpoint later e kept :=
  { h with
    labels := h.labels.imp fun _ h => h.mono hlater
    trigger := h.trigger.imp fun _ h => h.mono hlater
    options := h.options.imp fun _ h => h.mono hlater }

theorem makes_interns (heap : Heap) (v : Value) :
    Makes heap (intern v) fun after w => ∃ size, heap.Interns after size v w := by
  intro s w t hs hrun
  rw [on_intern, Prod.mk.injEq, Except.ok.injEq] at hrun
  obtain ⟨rfl, rfl⟩ := hrun
  have hext := Heap.extends_intern s.heap v
  exact ⟨hext, _, s.heap, hs, .refl _, Nat.le_refl _, rfl⟩

theorem makes_allocateEndpoint (heap : Heap) (e : Endpoint) :
    Makes heap (allocateEndpoint e) fun after v =>
      ∃ kept, after.cell? v = some (.endpoint kept) ∧ heap.KeepsEndpoint after e kept := by
  refine (makes_interns heap e.trigger).bind fun h₁ trigger hext₁ ⟨size, htrigger⟩ => ?_
  refine ((makes_interns heap e.labels).mono hext₁).bind fun h₂ labels hext₂ ⟨size', hlabels⟩ => ?_
  refine ((makes_interns heap e.options).mono (hext₂.trans hext₁)).bind
    fun h₃ options hext₃ ⟨size'', hoptions⟩ => ?_
  refine (makes_allocate _).imp fun after v hafter hcell => ⟨_, hcell, ?_⟩
  exact ⟨rfl, rfl, rfl, ⟨size', hlabels.mono (hafter.trans hext₃)⟩,
    ⟨size, htrigger.mono (hafter.trans (hext₃.trans hext₂))⟩, ⟨size'', hoptions.mono hafter⟩⟩

/-- What attaching a trigger leaves: a function with the endpoint of the trigger. -/
theorem attach_eq_ok (hrun : (attach trigger invoke).on s = (.ok w, t)) :
    ∃ e f kept, trigger.endpoint s.heap = .ok e ∧ t.heap.Extends s.heap ∧
      t.heap.cell? w = some (.function f) ∧ t.heap.cell? f.endpoint = some (.endpoint kept) ∧
      s.heap.KeepsEndpoint t.heap e kept := by
  rw [attach, on_bind, on_reading] at hrun
  cases he : trigger.endpoint s.heap with
  | error failure =>
    rw [he] at hrun
    cases hrun
  | ok e =>
    rw [he, next_ok, on_bind, next_eq_ok_iff] at hrun
    obtain ⟨endpoint, u, hendpoint, hrun⟩ := hrun
    obtain ⟨hext, kept, hcell, hkept⟩ :=
      makes_allocateEndpoint s.heap e s endpoint u (.refl _) hendpoint
    obtain ⟨hlast, hfunction⟩ := makes_allocate _ u w t (.refl _) hrun
    exact ⟨e, _, kept, rfl, hlast.trans hext, hfunction, hlast _ _ hcell, hkept.mono hlast⟩

end FunctionManifest
