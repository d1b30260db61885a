import FunctionManifest.Proofs.Trigger.Filters
import FunctionManifest.Proofs.Wire.Attached

/-!
# Event filters on the wire

The filters of an event are parted when its trigger is made, and both sides are kept in new objects.
So each attribute is emitted once, on the side that it was put on.
-/

namespace FunctionManifest

open Eval

variable {call : Caller} {s t u u' : Session} {v w tree : Value} {filters exact patterns : Entries}

/-! ## Splitting -/

theorem on_fromEntries {α : Type} (hentries : s.heap.entries? v = some filters)
    (make : Heap → Entries → Except Failure α) :
    (fromEntries call v make).on s = (make s.heap filters, s) := by
  cases hmade : make s.heap filters <;> simp [fromEntries, listedEntries, hentries, hmade]

/-- Atoms and references. -/
def AllKept (entries : Entries) : Prop := ∀ entry ∈ entries, entry.1.IsKept ∧ entry.2.IsKept

theorem Heap.Divides.allKept {heap : Heap} (h : heap.Divides filters exact patterns)
    (hkept : AllKept filters) : AllKept exact ∧ AllKept patterns := by
  induction h with
  | nil => exact ⟨nofun, nofun⟩
  | pattern _ _ _ ih =>
    obtain ⟨hfirst, hrest⟩ := List.forall_mem_cons.mp hkept
    obtain ⟨hexact, hpatterns⟩ := ih hrest
    exact ⟨hexact, List.forall_mem_cons.mpr ⟨⟨hfirst.1, Value.isKept_text _⟩, hpatterns⟩⟩
  | exact _ _ _ ih =>
    obtain ⟨hfirst, hrest⟩ := List.forall_mem_cons.mp hkept
    obtain ⟨hexact, hpatterns⟩ := ih hrest
    exact ⟨List.forall_mem_cons.mpr ⟨⟨hfirst.1, Value.isKept_text _⟩, hexact⟩, hpatterns⟩
  | other _ _ ih =>
    obtain ⟨hfirst, hrest⟩ := List.forall_mem_cons.mp hkept
    obtain ⟨hexact, hpatterns⟩ := ih hrest
    exact ⟨List.forall_mem_cons.mpr ⟨hfirst, hexact⟩, hpatterns⟩

/-- Both sides are given, each as a new mapping. -/
theorem on_splitFilters (call : Caller) (hentries : s.heap.entries? v = some filters)
    (hexact : AllKept (splitFilters s.heap filters).1)
    (hpatterns : AllKept (splitFilters s.heap filters).2) :
    ∃ w t a b, (callBuiltin call .splitFilters [v] []).on s = (.ok w, t) ∧
      t.heap.cell? w = some (.tuple [a, b]) ∧
      t.heap.cell? a = some (.mapping (splitFilters s.heap filters).1) ∧
      t.heap.cell? b = some (.mapping (splitFilters s.heap filters).2) := by
  have hbind : Builtin.splitFilters.signature.bind [v] [] = .ok ⟨[("filters", v)], [], []⟩ := rfl
  have hargument : (Arguments.mk [("filters", v)] [] []).get "filters" = v := rfl
  let exact := s.heap.allocate (.mapping (splitFilters s.heap filters).1)
  let patterns := exact.2.allocate (.mapping (splitFilters s.heap filters).2)
  have hintern : s.heap.intern (.tuple [.mapping (splitFilters s.heap filters).1,
      .mapping (splitFilters s.heap filters).2]) =
      patterns.2.allocate (.tuple [exact.1, patterns.1]) := by
    simp only [Heap.intern, Heap.internItems, Heap.internEntries_of_kept hexact,
      Heap.internEntries_of_kept hpatterns]
    rfl
  have hrun : (callBuiltin call .splitFilters [v] []).on s =
      (.ok (patterns.2.allocate (.tuple [exact.1, patterns.1])).1,
        { s with heap := (patterns.2.allocate (.tuple [exact.1, patterns.1])).2 }) := by
    simp only [callBuiltin, Builtin.receivesObject, Builtin.isConstructor, Bool.false_eq_true,
      if_false, List.nil_append, hbind, on_bind, on_ofExcept, next_ok, runBuiltin, hargument,
      on_fromEntries hentries, on_intern, hintern]
  have hext := Heap.extends_allocate patterns.2 (.tuple [exact.1, patterns.1])
  refine ⟨_, _, exact.1, patterns.1, hrun, Heap.cell?_allocate_new _ _, hext _ _ ?_,
    hext _ _ (Heap.cell?_allocate_new _ _)⟩
  exact Heap.extends_allocate exact.2 _ _ _ (Heap.cell?_allocate_new _ _)

/-! ## Events -/

theorem isTruthy_of_entries? {heap : Heap} (h : heap.entries? v = some filters) :
    heap.isTruthy v = true ↔ filters ≠ [] := by
  have htruthy : heap.isTruthy v = (heap.size? v).all (· != 0) := by
    cases v <;> first | rfl | cases h
  have hcontent : heap.content v = .mapping filters := by
    unfold Heap.entries? at h
    split at h
    · rwa [← Option.some.inj h]
    · cases h
  rw [htruthy, Heap.size?, Heap.items?, hcontent]
  cases filters <;> simp

/-- The sides of the event are those of the filters that it was given. -/
theorem eventTrigger_splits {arguments : Arguments} {trigger : Trigger}
    (hentries : s.heap.entries? (arguments.get "filters") = some filters)
    (hrun : (eventTrigger call arguments).on s = (.ok trigger, t)) :
    ∃ u a b, (intern (.mapping (splitFilters s.heap filters).1)).on s = (.ok a, u) ∧
      (intern (.mapping (splitFilters s.heap filters).2)).on u = (.ok b, t) ∧
      trigger = eventOf arguments a b := by
  obtain ⟨split, u, u', a, b, hsplit, ha, hb, rfl⟩ := eventTrigger_eq_ok hrun
  split at hsplit
  · rw [on_fromEntries hentries] at hsplit
    cases hsplit
    exact ⟨u', a, b, ha, hb, rfl⟩
  · rename_i hfalsy
    rw [isTruthy_of_entries? hentries, not_not] at hfalsy
    subst hfalsy
    cases hsplit
    exact ⟨u', a, b, ha, hb, rfl⟩

theorem hasNew_of_intern {entries : Entries} (hkept : AllKept entries)
    (hrun : (intern (.mapping entries)).on s = (.ok v, t)) :
    t.heap.Extends s.heap ∧ t.heap.HasNew s.heap.cells.size v entries := by
  obtain ⟨hext, hcell⟩ := makes_intern_mapping hkept s v t (.refl _) hrun
  obtain ⟨-, _, hinterns⟩ := makes_interns s.heap (.mapping entries) s v t (.refl _) hrun
  obtain ⟨address, hv, hle⟩ := hinterns.fresh
  exact ⟨hext, address, hv, hle, hcell⟩

/-- A function of an event has the sides of its filters in its trigger. -/
theorem event_of_function {positional : List Value} {keywords : Fields} {invoke : Value}
    (hkeywords : (keywords.map Prod.fst).Nodup)
    (hgiven : Assoc.get? keywords (Text.ofString "filters") = some v)
    (hentries : s.heap.entries? v = some filters) (hkept : AllKept filters)
    (hrun : (Attachment.mk .event positional keywords invoke).function.on s = (.ok w, t)) :
    ∃ (arguments : Arguments) (a b : Value) (u : Session), s.ComesTo u ∧
      (eventOf arguments a b).Takes .event keywords ∧
      u.heap.HasNew s.heap.cells.size a (splitFilters s.heap filters).1 ∧
      u.heap.HasNew s.heap.cells.size b (splitFilters s.heap filters).2 ∧
      (attach (eventOf arguments a b) invoke).on u = (.ok w, t) := by
  obtain ⟨hexact, hpatterns⟩ := (Heap.divides_splitFilters s.heap filters).allKept hkept
  obtain ⟨arguments, made, mid, hbind, hmade, hattach, -⟩ := function_eq_ok hrun
  change TriggerName.event.signature.bind positional keywords = .ok arguments at hbind
  have hfilters : arguments.get "filters" = v := by
    have hbound : arguments.get? "filters" = Assoc.get? keywords (Text.ofString "filters") :=
      get?_of_bind (by decide) (by decide) hbind
    rw [Arguments.get, hbound, hgiven]
    rfl
  rw [← hfilters] at hentries
  change (eventTrigger call arguments >>= fun trigger => allocate (.trigger trigger [])).on s = _
    at hmade
  rw [on_bind, next_eq_ok_iff] at hmade
  obtain ⟨trigger, last, htrigger, hmade⟩ := hmade
  obtain ⟨u, a, b, ha, hb, rfl⟩ := eventTrigger_splits hentries htrigger
  obtain ⟨hextU, hnewA⟩ := hasNew_of_intern hexact ha
  obtain ⟨hextLast, hnewB⟩ := hasNew_of_intern hpatterns hb
  have hlast : s.ComesTo last :=
    (Session.ComesTo.refl s).after (within_eventTrigger asksQuietly_call _) htrigger
  obtain ⟨hextMid, hcell⟩ := makes_allocate _ last made mid (.refl _) hmade
  exact ⟨arguments, a, b, mid, hlast.after (within_allocate_unemptying rfl) hmade,
    takes_newTrigger rfl (by decide) hkeywords hbind, hnewA.mono (hextMid.trans hextLast),
    (hnewB.mono hextMid).of_le hextU.size_le, hattach _ hcell⟩

/-! ## Wire forms -/

namespace Heap

variable {heap : Heap}

/-- Where these are the objects, conversion makes this of the value. -/
def Becomes (heap : Heap) (v w : Value) : Prop :=
  ∃ fuel way u u', ((heap.settingFrom fuel way v).wire (asking FunctionManifest.call)).on u =
    (.ok w, u')

theorem Becomes.eq_text {text : Text} (h : heap.Becomes (.text text) w) : w = .text text := by
  obtain ⟨fuel, way, u, u', hrun⟩ := h
  cases fuel with
  | zero => cases hrun
  | succ fuel =>
    simp only [settingFrom, cell?, content, enter?, Setting.wire, on_pure] at hrun
    cases hrun
    rfl

/-- A mapping becomes one with its keys. -/
theorem Becomes.mapping {entries : Entries} (h : heap.Becomes v w)
    (hcell : heap.cell? v = some (.mapping entries)) :
    ∃ written, w = .mapping written ∧ List.Forall₂ (AtKey heap.Becomes) entries written := by
  obtain ⟨fuel, way, u, u', hrun⟩ := h
  cases fuel with
  | zero => cases hrun
  | succ fuel =>
    have hcontent : heap.content v = .mapping entries := by rw [content, hcell]
    rw [settingFrom, hcell, hcontent] at hrun
    cases henter : enter? way v with
    | none =>
      rw [henter] at hrun
      cases hrun
    | some way' =>
      rw [henter] at hrun
      dsimp only at hrun
      rw [Setting.wire, on_bind, next_eq_ok_iff] at hrun
      obtain ⟨written, last, hwritten, hrun⟩ := hrun
      cases hrun
      refine ⟨written, rfl, ?_⟩
      have hall := forall₂_of_wireEntries (P := heap.Becomes) (within_asking asksQuietly_call)
        (fun entry _ u u' tree _ hrun => ⟨fuel, way', u, u', hrun⟩) (refl_of Session.Reaches u)
        hwritten
      exact hall

/-- Texts become themselves. -/
theorem eq_of_becomes_texts {entries written : Entries}
    (htexts : ∀ entry ∈ entries, ∃ text, entry.2 = .text text)
    (h : List.Forall₂ (AtKey heap.Becomes) entries written) : written = entries := by
  induction h with
  | nil => rfl
  | cons hfirst _ ih =>
    obtain ⟨⟨text, htext⟩, hrest⟩ := List.forall_mem_cons.mp htexts
    cases hfirst with
    | intro hvalue =>
      dsimp only at htext
      subst htext
      rw [hvalue.eq_text, ih hrest]

end Heap

/-- What fields are emitted as, where they are kept, has their names. -/
theorem becomes_of_emits {fields : Fields} {size : Nat} (h : s.Emits (.named fields) (.ok tree))
    (hclears : s.heap.clearsBelow size = true) (hsize : size ≤ s.heap.cells.size) :
    ∃ u written, s.ComesTo u ∧ tree = .mapping written ∧
      List.Forall₂ (AtText fun v w => v.IsKept → u.heap.Becomes v w) fields written := by
  obtain ⟨t, _, kept, ht, hkept, u, u', hu, hrun⟩ := h
  obtain ⟨entries, hnew, hentries⟩ := hkept.named
  have hlater := (hnew.of_le hsize).after (ht.leavesNew _ hclears).1 hu
  have hbecomes : u.heap.Becomes kept tree := ⟨_, _, _, _, hrun⟩
  obtain ⟨written, rfl, hwritten⟩ := hbecomes.mapping hlater.cell?
  refine ⟨u, written, ht.trans hu, rfl, ?_⟩
  refine forall₂_comp_of hentries hwritten fun field _ entry new hfield hnew => ?_
  cases hfield with
  | intro hvalue =>
    cases hnew with
    | intro hnew => exact .intro fun hv => hvalue.elim fun _ hvalue => hvalue.eq_of_isKept hv ▸ hnew

/-! ## Triggers -/

/-- An event has its exact filters, and its pattern filters if there are any. -/
theorem fields_of_event {heap : Heap} {type a b channel region retry : Value} {fields : Fields}
    (hb : heap.entries? b = some patterns)
    (h : (Payload.event type a b channel region retry).fields heap = .ok fields) :
    (fields.map Prod.fst).Nodup ∧ (Text.ofString "eventFilters", a) ∈ fields ∧
      ∀ x, (Text.ofString "eventFilterPathPatterns", x) ∈ fields ↔ patterns ≠ [] ∧ x = b := by
  have htruthy := isTruthy_of_entries? hb
  cases h
  unfold truthy given fieldIf field
  by_cases hnone : patterns = []
  · rw [if_neg (by rw [htruthy]; exact not_not.mpr hnone)]
    cases channel.given? <;> cases region.given? <;> simp [Text.ofString_inj, hnone]
  · rw [if_pos (htruthy.mpr hnone)]
    cases channel.given? <;> cases region.given? <;> simp [Text.ofString_inj, hnone]

/-- What the trigger of an event is on the wire: both sides, the one for patterns only if it has any. -/
structure Session.EmitsSides (s : Session) (exact patterns trigger : Entries) : Prop where
  apart : (trigger.map Prod.fst).Nodup
  exact : ∃ u written, s.ComesTo u ∧ (Value.text "eventFilters", .mapping written) ∈ trigger ∧
    List.Forall₂ (AtKey u.heap.Becomes) exact written
  patterns : ∀ tree, (Value.text "eventFilterPathPatterns", tree) ∈ trigger ↔
    patterns ≠ [] ∧ tree = .mapping patterns

theorem emitsSides_of_emits {type a b channel region retry : Value} {fields : Fields} {size : Nat}
    (hclears : s.heap.clearsBelow size = true) (hsize : size ≤ s.heap.cells.size)
    (ha : s.heap.HasNew size a exact) (hb : s.heap.HasNew size b patterns)
    (htexts : ∀ entry ∈ patterns, ∃ text, entry.2 = .text text)
    (hfields : (Payload.event type a b channel region retry).fields s.heap = .ok fields)
    (h : s.Emits (.named fields) (.ok tree)) :
    ∃ trigger, tree = .mapping trigger ∧ s.EmitsSides exact patterns trigger := by
  obtain ⟨u, trigger, hu, rfl, htrigger⟩ := becomes_of_emits h hclears hsize
  obtain ⟨hnodup, hexact, hpatterns⟩ :=
    fields_of_event (by rw [Heap.entries?, Heap.content, hb.cell?]) hfields
  have hkeptA : a.IsKept := Value.isKept_of_cell? ha.cell?
  have hkeptB : b.IsKept := Value.isKept_of_cell? hb.cell?
  have hpatternsTree : ∀ tree, u.heap.Becomes b tree → tree = .mapping patterns := by
    intro tree htree
    obtain ⟨written, rfl, hwritten⟩ := htree.mapping (hb.after hclears hu).cell?
    rw [Heap.eq_of_becomes_texts htexts hwritten]
  refine ⟨trigger, rfl, ?_, ?_, fun tree => ⟨fun hmem => ?_, ?_⟩⟩
  · rw [keys_of_atText htrigger]
    exact hnodup.map fun _ _ h => Value.text.inj h
  · obtain ⟨_, hmem, ⟨hvalue⟩⟩ := exists_right_of_forall₂ htrigger hexact
    obtain ⟨written, rfl, hwritten⟩ := (hvalue hkeptA).mapping (ha.after hclears hu).cell?
    exact ⟨u, written, hu, hmem, hwritten⟩
  · obtain ⟨⟨name, v⟩, hfield, htext⟩ := exists_left_of_forall₂ htrigger hmem
    obtain ⟨hname, hvalue⟩ := htext.eq
    have hpattern : Text.ofString "eventFilterPathPatterns" = name := Value.text.inj hname
    obtain ⟨hne, rfl⟩ := (hpatterns v).mp (hpattern ▸ hfield)
    exact ⟨hne, hpatternsTree tree (hvalue hkeptB)⟩
  · rintro ⟨hne, rfl⟩
    obtain ⟨_, hmem, ⟨hvalue⟩⟩ := exists_right_of_forall₂ htrigger ((hpatterns _).mpr ⟨hne, rfl⟩)
    rwa [← hpatternsTree _ (hvalue hkeptB)]

theorem emitsSides_of_function {positional : List Value} {keywords : Fields} {invoke : Value}
    (hsettled : s.Settled) (hkeywords : (keywords.map Prod.fst).Nodup)
    (hgiven : Assoc.get? keywords (Text.ofString "filters") = some v)
    (hentries : s.heap.entries? v = some filters) (hkept : AllKept filters)
    (hmade : (Attachment.mk .event positional keywords invoke).function.on s = (.ok w, t))
    {adjustments : List Adjustment} (hrun : ((adjustedWire adjustments w).on t).1 = .ok tree) :
    ∃ u entries trigger, s.ComesTo u ∧ tree = .mapping entries ∧ (entries.map Prod.fst).Nodup ∧
      (Value.text "eventTrigger", .mapping trigger) ∈ entries ∧
      u.EmitsSides (splitFilters s.heap filters).1 (splitFilters s.heap filters).2 trigger := by
  obtain ⟨arguments, a, b, u, hu, htakes, ha, hb, hattach⟩ :=
    event_of_function hkeywords hgiven hentries hkept hmade
  have hnodup := nodup_manifestKeys hkeywords
  rw [← htakes.options] at hnodup
  have hlater := (hu.leavesNew _ hsettled).1
  obtain ⟨fields, labels, options, hdescribes, hemits⟩ :=
    emits_of_attach hattach hlater hu.size_le hnodup adjustments
  rw [hrun] at hemits
  cases hemits with
  | emitted hapart hall =>
    have hkind : (eventOf arguments a b).payload.kind.key = "eventTrigger" := rfl
    rw [attachedFields, hkind] at hall
    obtain ⟨_, hpart, ⟨hvalue⟩⟩ :=
      exists_right_of_forall₂ hall (List.mem_cons_of_mem _ List.mem_cons_self)
    obtain ⟨trigger, rfl, hsides⟩ := emitsSides_of_emits hlater hu.size_le ha hb
      (fun _ => (Heap.divides_splitFilters s.heap filters).exists_text) hdescribes.payload hvalue
    exact ⟨u, _, trigger, hu, rfl, hapart, List.mem_append_right _ hpart, hsides⟩

/-- Filters are parted without loss: each attribute is on one side, in order, and a text or a template
stands among the patterns if it has an asterisk or a capture and nowhere else. So an exact filter binds
nothing on any path. A function of an event is emitted with both sides, the pattern filters only if
there are any. -/
theorem filters_divided (hfilters : s.heap.cell? v = some (.mapping filters))
    (hkept : AllKept filters) (hsplit : splitFilters s.heap filters = (exact, patterns)) :
    s.heap.Divides filters exact patterns ∧
    (exact.map Prod.fst ++ patterns.map Prod.fst).Perm (filters.map Prod.fst) ∧
    (exact.map Prod.fst).Sublist (filters.map Prod.fst) ∧
    (patterns.map Prod.fst).Sublist (filters.map Prod.fst) ∧
    (∀ call, ∃ w t a b, (callBuiltin call .splitFilters [v] []).on s = (.ok w, t) ∧
      t.heap.cell? w = some (.tuple [a, b]) ∧ t.heap.cell? a = some (.mapping exact) ∧
      t.heap.cell? b = some (.mapping patterns)) ∧
    (∀ key text, (key, .text text) ∈ exact →
      ∀ path, (Pattern.mk text).extractMatches path = []) ∧
    ∀ (positional : List Value) (keywords : Fields) (invoke w : Value) (t : Session)
      (adjustments : List Adjustment) (tree : Value), s.Settled → (keywords.map Prod.fst).Nodup →
      Assoc.get? keywords (Text.ofString "filters") = some v →
      (Attachment.mk .event positional keywords invoke).function.on s = (.ok w, t) →
      ((adjustedWire adjustments w).on t).1 = .ok tree →
      ∃ u entries trigger, s.ComesTo u ∧ tree = .mapping entries ∧ (entries.map Prod.fst).Nodup ∧
        (Value.text "eventTrigger", .mapping trigger) ∈ entries ∧
        u.EmitsSides exact patterns trigger := by
  have hdivides := Heap.divides_splitFilters s.heap filters
  have hentries : s.heap.entries? v = some filters := by
    rw [Heap.entries?, Heap.content, hfilters]
  have hsides := hdivides.allKept hkept
  have hbuiltin := fun call => on_splitFilters call hentries hsides.1 hsides.2
  rw [hsplit] at hdivides hbuiltin
  refine ⟨hdivides, hdivides.perm, hdivides.sublist_exact, hdivides.sublist_patterns, hbuiltin,
    fun key text hmem path =>
      Pattern.extractMatches_of_not_needsPattern (hdivides.not_needsPattern hmem) path, ?_⟩
  intro positional keywords invoke w t adjustments tree hsettled hkeywords hgiven hmade hrun
  have hwire := emitsSides_of_function hsettled hkeywords hgiven hentries hkept hmade hrun
  rwa [hsplit] at hwire

def mixedFilters : Entries :=
  [(.text "document", .text "users/\x7bid\x7d"), (.text "database", .text "(default)")]

/-- A session with a mapping of two filters. -/
def mixed : Session :=
  { Session.fresh default default with heap := (Heap.initial.allocate (.mapping mixedFilters)).2 }

/-- A function of an event with these filters. -/
def updated : Attachment where
  name := .event
  positional := [.text "updated"]
  keywords := [("filters", .ref Heap.initial.cells.size)]
  invoke := .null

theorem filters_divided_mixed :
    splitFilters mixed.heap mixedFilters =
      ([(.text "database", .text "(default)")], [(.text "document", .text "users/\x7bid\x7d")]) ∧
    ∃ (w : Value) (t u : Session) (entries trigger : Entries), updated.function.on mixed = (.ok w, t) ∧
      ((adjustedWire [] w).on t).1 = .ok (.mapping entries) ∧
      (Value.text "eventTrigger", .mapping trigger) ∈ entries ∧
      u.EmitsSides [(.text "database", .text "(default)")]
        [(.text "document", .text "users/\x7bid\x7d")] trigger := by
  have hsettled : mixed.Settled :=
    (Session.Settled.fresh default default).allocate fun v hv => by cases hv
  have hkept : AllKept mixedFilters := by
    simp [AllKept, mixedFilters, Value.isKept_text]
  have hfilters : mixed.heap.cell? (.ref Heap.initial.cells.size) = some (.mapping mixedFilters) :=
    Heap.cell?_allocate_new _ _
  have hsplit : splitFilters mixed.heap mixedFilters =
      ([(.text "database", .text "(default)")], [(.text "document", .text "users/\x7bid\x7d")]) := by
    rfl
  have hmade := Eval.eq_of_isOk
    (show (updated.function.on mixed).1.isOk = true by decide +kernel) default
  have hwire := Eval.eq_of_isOk (show ((adjustedWire [] ((updated.function.on mixed).1.toOption.getD
    default)).on (updated.function.on mixed).2).1.isOk = true by decide +kernel) default
  obtain ⟨-, -, -, -, -, -, hemits⟩ := filters_divided hfilters hkept hsplit
  obtain ⟨u, entries, trigger, -, htree, -, hmem, hsides⟩ :=
    hemits [.text "updated"] [("filters", .ref Heap.initial.cells.size)] .null _ _ [] _ hsettled
      (by decide) rfl hmade (congrArg Prod.fst hwire)
  refine ⟨hsplit, _, _, u, entries, trigger, hmade, ?_, hmem, hsides⟩
  rw [← htree]
  exact congrArg Prod.fst hwire

end FunctionManifest
