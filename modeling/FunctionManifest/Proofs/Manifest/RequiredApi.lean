import FunctionManifest.Proofs.Language.Describing
import FunctionManifest.Proofs.Text.Separated
import FunctionManifest.Proofs.Value.Equality
import Mathlib.Data.List.Induction
import Mathlib.Data.List.Nodup

/-!
# Folding required APIs

Requirements are folded to each API once, in the order in which they were first required, with its
distinct reasons in the order in which they were first given. The fold over the requirements keeps
to this from one requirement to the next.
-/

namespace FunctionManifest

/-! ## First occurrences -/

section

variable {α : Type}

theorem nodup_concat {items : List α} {item : α} :
    (items ++ [item]).Nodup ↔ items.Nodup ∧ item ∉ items := by
  rw [List.nodup_append_comm, List.singleton_append, List.nodup_cons, and_comm]

variable [BEq α] [LawfulBEq α]

theorem eraseDups_concat (items : List α) (item : α) :
    (items ++ [item]).eraseDups =
      if item ∈ items then items.eraseDups else items.eraseDups ++ [item] := by
  rw [List.eraseDups_append]
  by_cases h : item ∈ items
  · simp [h, List.removeAll]
  · simp [h, List.removeAll, List.eraseDups_cons]

theorem eraseDups_append_of_apart {items others : List α} (h : ∀ a ∈ others, a ∉ items) :
    (items ++ others).eraseDups = items.eraseDups ++ others.eraseDups := by
  have hothers : others.removeAll items = others := by
    apply List.filter_eq_self.mpr
    intro a ha
    simp [h a ha]
  rw [List.eraseDups_append, hothers]

theorem nodup_eraseDups (items : List α) : items.eraseDups.Nodup := by
  induction items using List.reverseRecOn with
  | nil => exact .nil
  | append_singleton items item ih =>
    rw [eraseDups_concat]
    split
    · exact ih
    · rename_i h
      exact nodup_concat.mpr ⟨ih, mt List.mem_eraseDups.mp h⟩

theorem eraseDups_of_nodup {items : List α} (h : items.Nodup) : items.eraseDups = items := by
  induction items using List.reverseRecOn with
  | nil => rfl
  | append_singleton items item ih =>
    obtain ⟨hitems, hnew⟩ := nodup_concat.mp h
    rw [eraseDups_concat, if_neg hnew, ih hitems]

end

/-! ## Keys -/

namespace Heap

variable {heap : Heap}

/-- A text is the same key as that text only. -/
theorem sameKey_text (v : Value) (t : Text) : heap.sameKey v (.text t) = (v == .text t) := by
  have hdone : (v.identical (.text t) || (v == .text t)) = (v == .text t) := by
    cases v <;> simp [Value.identical]
  rw [sameKey, sameInside, sameItem, same_text, ← hdone]
  cases v.identical (.text t) <;> rfl

end Heap

namespace RequiredApi

variable {given first second : List (Text × Text)} {api reason : Text}

/-! ## One requirement for each API -/

/-- The distinct reasons that are given for the API. -/
def reasonsFor (given : List (Text × Text)) (api : Text) : List Text :=
  ((given.filter fun r => r.1 = api).map Prod.snd).eraseDups

/-- Each API with all of its reasons in one text. -/
def folded (given : List (Text × Text)) : List (Text × Text) :=
  (given.map Prod.fst).eraseDups.map fun api => (api, Text.join " " (reasonsFor given api))

theorem filter_of_not_mem (h : api ∉ given.map Prod.fst) :
    given.filter (fun r => r.1 = api) = [] := by
  apply List.filter_eq_nil_iff.mpr
  intro r hr hsame
  rw [decide_eq_true_eq] at hsame
  exact h (hsame ▸ List.mem_map_of_mem hr)

theorem reasonsFor_of_not_mem (h : api ∉ given.map Prod.fst) : reasonsFor given api = [] := by
  rw [reasonsFor, filter_of_not_mem h]
  rfl

theorem reasonsFor_append_left (h : api ∉ second.map Prod.fst) :
    reasonsFor (first ++ second) api = reasonsFor first api := by
  rw [reasonsFor, List.filter_append, filter_of_not_mem h, List.append_nil, reasonsFor]

theorem reasonsFor_append_right (h : api ∉ first.map Prod.fst) :
    reasonsFor (first ++ second) api = reasonsFor second api := by
  rw [reasonsFor, List.filter_append, filter_of_not_mem h, List.nil_append, reasonsFor]

theorem reasonsFor_concat (given : List (Text × Text)) (api reason : Text) :
    reasonsFor (given ++ [(api, reason)]) api =
      if reason ∈ reasonsFor given api then reasonsFor given api
      else reasonsFor given api ++ [reason] := by
  have hlast : [(api, reason)].filter (fun r => r.1 = api) = [(api, reason)] := by simp
  rw [reasonsFor, List.filter_append, hlast, List.map_append, List.map_singleton,
    eraseDups_concat, reasonsFor]
  simp only [List.mem_eraseDups]

theorem map_fst_folded (given : List (Text × Text)) :
    (folded given).map Prod.fst = (given.map Prod.fst).eraseDups := by
  rw [folded, List.map_map]
  exact List.map_id _

/-- A list in which no API is twice is folded already. -/
theorem folded_of_nodup (h : (given.map Prod.fst).Nodup) : folded given = given := by
  have hreasons : ∀ r ∈ given, reasonsFor given r.1 = [r.2] := by
    induction given using List.reverseRecOn with
    | nil => exact nofun
    | append_singleton given last ih =>
      rw [List.map_append, List.map_singleton, nodup_concat] at h
      obtain ⟨hgiven, hnew⟩ := h
      intro r hr
      rcases List.mem_append.mp hr with hr | hr
      · have hother : r.1 ∉ [last].map Prod.fst := by
          rw [List.map_singleton, List.mem_singleton]
          exact fun hsame => hnew (hsame ▸ List.mem_map_of_mem hr)
        rw [reasonsFor_append_left hother, ih hgiven r hr]
      · obtain rfl := List.mem_singleton.mp hr
        rw [reasonsFor_append_right hnew]
        simp [reasonsFor, List.eraseDups_cons]
  rw [folded, eraseDups_of_nodup h, List.map_map]
  refine (List.map_congr_left fun r hr => ?_).trans (List.map_id given)
  simp only [Function.comp_apply, hreasons r hr, Text.join, List.intercalate_singleton, id]

theorem folded_folded (given : List (Text × Text)) : folded (folded given) = folded given := by
  apply folded_of_nodup
  rw [map_fst_folded]
  exact nodup_eraseDups _

theorem folded_append (h : ∀ r ∈ first, ∀ r' ∈ second, r.1 ≠ r'.1) :
    folded (first ++ second) = folded first ++ folded second := by
  have hapart : ∀ api ∈ first.map Prod.fst, api ∉ second.map Prod.fst := by
    intro api hfirst hsecond
    obtain ⟨r, hr, rfl⟩ := List.mem_map.mp hfirst
    obtain ⟨r', hr', hsame⟩ := List.mem_map.mp hsecond
    exact h r hr r' hr' hsame.symm
  have hkeys := eraseDups_append_of_apart fun api hsecond hfirst => hapart api hfirst hsecond
  rw [folded, List.map_append, hkeys, List.map_append, folded, folded]
  congr 1
  · apply List.map_congr_left
    intro api hapi
    rw [reasonsFor_append_left (hapart api (List.mem_eraseDups.mp hapi))]
  · apply List.map_congr_left
    intro api hapi
    rw [reasonsFor_append_right fun hfirst => hapart api hfirst (List.mem_eraseDups.mp hapi)]

theorem exists_mem_folded {r : Text × Text} (h : r ∈ given) :
    ∃ reasons, (r.1, reasons) ∈ folded given ∧ r.2 <:+: reasons := by
  have hapi : r.1 ∈ (given.map Prod.fst).eraseDups :=
    List.mem_eraseDups.mpr (List.mem_map_of_mem h)
  have hreason : r.2 ∈ reasonsFor given r.1 := by
    apply List.mem_eraseDups.mpr
    apply List.mem_map_of_mem
    exact List.mem_filter.mpr ⟨h, decide_eq_true rfl⟩
  exact ⟨_, List.mem_map_of_mem hapi, Text.infix_join hreason⟩

/-! ## The fold -/

/-- An API with a reason, as texts. -/
def plain (api : Text × Text) : RequiredApi := ⟨.text api.1, .text api.2⟩

section

variable (heap : Heap)

theorem sameKey_texts (t t' : Text) :
    heap.sameKey (.text t) (.text t') = decide (t = t') := by
  rw [Heap.sameKey_text, ← Bool.coe_iff_coe, beq_iff_eq, decide_eq_true_eq, Value.text.injEq]

theorem addReason_texts (reasons : List Text) (reason : Text) :
    addReason heap.sameKey (reasons.map .text) (.text reason) =
      (if reason ∈ reasons then reasons else reasons ++ [reason]).map .text := by
  have hany : ((reasons.map Value.text).any fun known => heap.sameKey known (.text reason)) =
      decide (reason ∈ reasons) := by
    rw [List.any_map, ← Bool.coe_iff_coe, List.any_eq_true, decide_eq_true_eq]
    simp [sameKey_texts]
  rw [addReason, hany]
  by_cases h : reason ∈ reasons <;> simp [h]

variable {β : Type}

theorem lookBy_texts (keys : List Text) (f : Text → β) (key : Text) :
    Assoc.lookBy heap.sameKey (keys.map fun k => (.text k, f k)) (.text key) =
      if key ∈ keys then some (f key) else none := by
  induction keys with
  | nil => rfl
  | cons k keys ih =>
    unfold Assoc.lookBy at ih ⊢
    rw [List.map_cons]
    by_cases h : k = key
    · subst h
      rw [List.find?_cons_of_pos (by simp [sameKey_texts]), if_pos List.mem_cons_self]
      rfl
    · rw [List.find?_cons_of_neg (by simp [sameKey_texts, h]), ih]
      simp [Ne.symm h]

/-- A key that is there keeps its place, a new one comes last. -/
theorem putBy_texts {keys : List Text} (hkeys : keys.Nodup) (f : Text → β) (key : Text)
    (value : β) :
    Assoc.putBy heap.sameKey (keys.map fun k => (.text k, f k)) (.text key) value =
      (if key ∈ keys then keys else keys ++ [key]).map fun k =>
        (.text k, if k = key then value else f k) := by
  induction keys with
  | nil => simp [Assoc.putBy]
  | cons k keys ih =>
    obtain ⟨hk, hkeys⟩ := List.nodup_cons.mp hkeys
    rw [List.map_cons, Assoc.putBy, sameKey_texts]
    by_cases h : k = key
    · subst h
      have hrest : keys.map (fun k' => (Value.text k', f k')) =
          keys.map fun k' => (.text k', if k' = k then value else f k') := by
        apply List.map_congr_left
        intro k' hk'
        have hne : k' ≠ k := by
          rintro rfl
          exact hk hk'
        rw [if_neg hne]
      rw [if_pos (decide_eq_true rfl), hrest, if_pos List.mem_cons_self, List.map_cons, if_pos rfl]
    · have hkeep : (if key ∈ k :: keys then k :: keys else k :: keys ++ [key]) =
          k :: if key ∈ keys then keys else keys ++ [key] := by
        by_cases hkey : key ∈ keys <;> simp [hkey, Ne.symm h]
      rw [if_neg (by simp [h]), ih hkeys, hkeep, List.map_cons, if_neg h]

/-- The requirements as they are grouped while they are folded. -/
def grouped (given : List (Text × Text)) : List (Value × List Value) :=
  (given.map Prod.fst).eraseDups.map fun api => (.text api, (reasonsFor given api).map .text)

theorem reasons_known (given : List (Text × Text)) (api : Text) :
    (Assoc.lookBy heap.sameKey (grouped given) (.text api)).getD [] =
      (reasonsFor given api).map .text := by
  rw [grouped, lookBy_texts]
  split
  · rfl
  · rename_i hnew
    rw [reasonsFor_of_not_mem (mt List.mem_eraseDups.mpr hnew)]
    rfl

theorem grouped_concat (given : List (Text × Text)) (r : Text × Text) :
    grouped (given ++ [r]) = Assoc.putBy heap.sameKey (grouped given) (.text r.1)
      (addReason heap.sameKey
        ((Assoc.lookBy heap.sameKey (grouped given) (.text r.1)).getD []) (.text r.2)) := by
  rw [reasons_known, addReason_texts, ← reasonsFor_concat]
  unfold grouped
  rw [putBy_texts heap (nodup_eraseDups _), List.map_append, List.map_singleton, eraseDups_concat]
  simp only [List.mem_eraseDups]
  apply List.map_congr_left
  intro api _
  by_cases h : api = r.1
  · rw [if_pos h, h]
  · rw [if_neg h, reasonsFor_append_left (by simpa using h)]

theorem reasonsByApi_plain (given : List (Text × Text)) :
    reasonsByApi heap.sameKey (given.map plain) = grouped given := by
  induction given using List.reverseRecOn with
  | nil => rfl
  | append_singleton given r ih =>
    rw [grouped_concat heap, ← ih, List.map_append, reasonsByApi, List.foldl_append]
    rfl

theorem merge_folded (given : List (Text × Text)) :
    merge heap.sameKey (heap.joined " ") (given.map plain) = .ok ((folded given).map plain) := by
  have hone : ∀ api ∈ (given.map Prod.fst).eraseDups,
      (do return ⟨.text api, .text (← heap.joined " " ((reasonsFor given api).map .text))⟩ :
        Except Failure RequiredApi) = .ok (plain (api, Text.join " " (reasonsFor given api))) := by
    intro api _
    rw [Heap.joined, Heap.textItems_texts]
    rfl
  rw [merge, reasonsByApi_plain, grouped, List.mapM_map, folded, List.map_map]
  exact mapM_of_ok hone

end

end RequiredApi

namespace Heap

variable {heap : Heap}

/-! ## Requirements -/

/-- The value requires an API by its name, for a reason. -/
def Requires (heap : Heap) (v : Value) (name reason : Text) : Prop :=
  heap.requirement v = .ok (.plain (name, reason))

instance (heap : Heap) (v : Value) : Decidable (∃ name reason, heap.Requires v name reason) :=
  decidable_of_iff ((match heap.requirement v with
    | .ok ⟨.text _, .text _⟩ => true
    | _ => false) = true) <| by
    unfold Requires RequiredApi.plain
    split <;> simp_all

theorem checkKey_text (t : Text) : heap.checkKey (.text t) = .ok () := by
  cases t <;> rfl

theorem lookEntry_text (entries : Entries) (t : Text) :
    heap.lookEntry entries (.text t) = .ok (Assoc.get? entries (.text t)) := by
  have hsame : Assoc.lookBy heap.sameKey entries (.text t) = Assoc.get? entries (.text t) := by
    simp [Assoc.get?, Assoc.lookBy, sameKey_text]
  simp [lookEntry, checkKey_text, hsame, bind, Except.bind, pure, Except.pure]

theorem member_eq_ok_iff {entries : Entries} {key : String} {v : Value} :
    heap.member entries key = .ok v ↔ Assoc.get? entries (.text key) = some v := by
  rw [member, lookEntry_text]
  cases Assoc.get? entries (.text key) <;>
    simp [bind, Except.bind, pure, Except.pure, throw, throwThe, MonadExceptOf.throw]

/-- What can be looked up by name stays the same, whatever other objects there are. -/
theorem Extends.entries? {before : Heap} {v : Value} {entries : Entries}
    (h : heap.Extends before) (hentries : before.entries? v = some entries) :
    heap.entries? v = some entries := by
  cases v with
  | ref address =>
    cases hcell : before.cell? (.ref address) with
    | none => simp [Heap.entries?, content, hcell] at hentries
    | some cell =>
      have hnew := h _ _ hcell
      rw [← hentries]
      cases cell <;> simp [Heap.entries?, content, hcell, hnew]
  | _ => exact hentries

theorem part_eq_ok_iff {v w : Value} {name : String} (hexport : exportedName? name = none) :
    heap.part v name = .ok w ↔ ∃ cell, heap.cell? v = some cell ∧ cell.stored? name = some w := by
  have hstored : heap.stored? v name = (heap.cell? v).bind (·.stored? name) := by
    simp [stored?, hexport]
  rw [part, hstored, ← Option.bind_eq_some_iff]
  cases (heap.cell? v).bind (·.stored? name) <;> simp

/-- An API is required by a mapping that has both, or by an object that has both. -/
theorem requires_iff {v : Value} {name reason : Text} :
    heap.Requires v name reason ↔
      (∃ entries, heap.entries? v = some entries ∧
        Assoc.get? entries (.text (Text.ofString "api")) = some (.text name) ∧
        Assoc.get? entries (.text (Text.ofString "reason")) = some (.text reason)) ∨
      (heap.entries? v = none ∧ ∃ cell, heap.cell? v = some cell ∧
        cell.stored? (Text.ofString "api") = some (.text name) ∧
        cell.stored? (Text.ofString "reason") = some (.text reason)) := by
  rw [Requires, requirement]
  cases hentries : heap.entries? v with
  | some entries =>
    simp only [bind_eq_ok_iff, member_eq_ok_iff]
    constructor
    · rintro ⟨api, hapi, why, hwhy, -, -, -, -, hmade⟩
      cases hmade
      exact .inl ⟨entries, rfl, hapi, hwhy⟩
    · rintro (⟨found, hfound, hapi, hwhy⟩ | ⟨hnone, -⟩)
      · cases hfound
        exact ⟨_, hapi, _, hwhy, (), checkKey_text _, (), checkKey_text _, rfl⟩
      · cases hnone
  | none =>
    have happ : exportedName? (Text.ofString "api") = none := by decide
    have hreason : exportedName? (Text.ofString "reason") = none := by decide
    simp only [bind_eq_ok_iff, part_eq_ok_iff happ, part_eq_ok_iff hreason]
    constructor
    · rintro ⟨api, ⟨cell, hcell, hapi⟩, -, -, why, ⟨cell', hcell', hwhy⟩, -, -, hmade⟩
      cases hmade
      cases hcell.symm.trans hcell'
      exact .inr ⟨trivial, cell, hcell, hapi, hwhy⟩
    · rintro (⟨_, hsome, -⟩ | ⟨-, cell, hcell, hapi, hwhy⟩)
      · cases hsome
      · exact ⟨_, ⟨cell, hcell, hapi⟩, (), checkKey_text _, _, ⟨cell, hcell, hwhy⟩, (),
          checkKey_text _, rfl⟩

theorem Requires.mono {later : Heap} {v : Value} {name reason : Text}
    (hlater : later.Extends heap) (h : heap.Requires v name reason) :
    later.Requires v name reason := by
  rw [requires_iff] at h ⊢
  rcases h with ⟨entries, hentries, hparts⟩ | ⟨hnone, cell, hcell, hparts⟩
  · exact .inl ⟨entries, hlater.entries? hentries, hparts⟩
  · refine .inr ⟨?_, cell, hlater _ _ hcell, hparts⟩
    have hcontent : later.content v = heap.content v := by
      rw [content, content, hcell, hlater _ _ hcell]
    rw [Heap.entries?, hcontent]
    exact hnone

/-- An API with a reason requires itself. -/
theorem requires_of_cell? {v : Value} {api : Text × Text}
    (h : heap.cell? v = some (.api (.plain api))) : heap.Requires v api.1 api.2 := by
  refine requires_iff.mpr (.inr ⟨?_, _, h, ?_, ?_⟩)
  · cases v with
    | ref address => simp [Heap.entries?, content, h]
    | _ => cases h
  · exact (Cell.stored?_of_plain rfl "api").trans rfl
  · exact (Cell.stored?_of_plain rfl "reason").trans rfl

/-! ## Merging -/

/-- The items require these APIs for these reasons, each one of them. -/
def RequireAll (heap : Heap) (items : List Value) (given : List (Text × Text)) : Prop :=
  List.Forall₂ (fun v r => heap.Requires v r.1 r.2) items given

theorem RequireAll.mergedApis {items : List Value} {given : List (Text × Text)}
    (h : heap.RequireAll items given) :
    heap.mergedApis items = .ok ((RequiredApi.folded given).map .plain) := by
  have hread : items.mapM heap.requirement = .ok (given.map .plain) := by
    induction h with
    | nil => rfl
    | cons hfirst _ ih =>
      rw [List.mapM_cons, hfirst, ih]
      rfl
  rw [Heap.mergedApis, hread]
  exact RequiredApi.merge_folded heap given

theorem exists_requireAll {items : List Value}
    (htyped : ∀ v ∈ items, ∃ name reason, heap.Requires v name reason) :
    ∃ given, heap.RequireAll items given := by
  induction items with
  | nil => exact ⟨[], .nil⟩
  | cons v rest ih =>
    obtain ⟨⟨name, reason, hfirst⟩, hrest⟩ := List.forall_mem_cons.mp htyped
    obtain ⟨given, hgiven⟩ := ih hrest
    exact ⟨(name, reason) :: given, .cons hfirst hgiven⟩

/-- What requires APIs is merged to APIs that are all different, with every reason. -/
theorem mergedApis_eq_ok {items : List Value} {merged : List RequiredApi}
    (htyped : ∀ v ∈ items, ∃ name reason, heap.Requires v name reason)
    (h : heap.mergedApis items = .ok merged) :
    ∃ apis : List (Text × Text), apis.map .plain = merged ∧ (apis.map Prod.fst).Nodup ∧
      ∀ v ∈ items, ∃ name reason reasons, heap.Requires v name reason ∧
        (name, reasons) ∈ apis ∧ reason <:+: reasons := by
  obtain ⟨given, hgiven⟩ := exists_requireAll htyped
  rw [hgiven.mergedApis, Except.ok.injEq] at h
  refine ⟨RequiredApi.folded given, h, ?_, fun v hv => ?_⟩
  · rw [RequiredApi.map_fst_folded]
    exact nodup_eraseDups _
  · obtain ⟨r, hr, hrequires⟩ := exists_right_of_forall₂ hgiven hv
    obtain ⟨reasons, hreasons⟩ := RequiredApi.exists_mem_folded hr
    exact ⟨r.1, r.2, reasons, hrequires, hreasons⟩

end Heap

end FunctionManifest
