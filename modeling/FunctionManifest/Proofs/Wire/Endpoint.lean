import FunctionManifest.Proofs.Assoc
import FunctionManifest.Proofs.Language.Asking
import FunctionManifest.Proofs.Steps
import FunctionManifest.Proofs.Wire.Conversion

/-!
# Endpoints on the wire

Labels, trigger and options are put one after the other, each converted by itself, behind the header
of the endpoint. A later one takes the place of an earlier one with its key.
-/

namespace FunctionManifest

open Eval

/-! ## Putting -/

/-- The keys are one, by what they are or as some session that is reached compares them. -/
def Session.OneKey (s : Session) (key key' : Value) : Prop :=
  key = key' ∨ ∃ u, s.Reaches u ∧ u.heap.sameKey key key' = true

/-- A header, and behind it settings that were put. Each has something related for its value, unless
another one with its key was put later. -/
structure Session.Describes (s : Session) (header settings : Entries) (R : Value → Value → Prop)
    (fields : Entries) : Prop where
  keys : ∀ entry ∈ fields, entry.1 ∈ (header ++ settings).map Prod.fst
  values : ∀ entry ∈ fields, entry ∈ header ∨ ∃ setting ∈ settings, R setting.2 entry.2
  covers : ∀ setting ∈ settings, ∃ entry ∈ fields, s.OneKey entry.1 setting.1 ∧
    ∃ later ∈ settings, R later.2 entry.2

namespace Session.Describes

variable {s u : Session} {header settings fields : Entries} {R R' : Value → Value → Prop}

theorem imp (h : s.Describes header settings R fields) (himp : ∀ v w, R v w → R' v w) :
    s.Describes header settings R' fields where
  keys := h.keys
  values entry hentry := (h.values entry hentry).imp_right fun ⟨setting, hsetting, hR⟩ =>
    ⟨setting, hsetting, himp _ _ hR⟩
  covers setting hsetting := by
    obtain ⟨entry, hentry, hkey, later, hlater, hR⟩ := h.covers setting hsetting
    exact ⟨entry, hentry, hkey, later, hlater, himp _ _ hR⟩

/-- One more setting is put. -/
theorem put (h : s.Describes header settings R fields) (hu : s.Reaches u) (key : Value)
    {v w : Value} (hR : R v w) :
    s.Describes header (settings ++ [(key, v)]) R
      (Assoc.putBy u.heap.sameKey fields key w) where
  keys entry hentry := by
    have hwider : ∀ k ∈ (header ++ settings).map Prod.fst,
        k ∈ (header ++ (settings ++ [(key, v)])).map Prod.fst := by
      intro k hk
      rw [← List.append_assoc, List.map_append]
      exact List.mem_append_left _ hk
    rcases Assoc.mem_or_of_mem_putBy hentry with hold | ⟨-, hkey | hkey⟩
    · exact hwider _ (h.keys entry hold)
    · simp [hkey]
    · obtain ⟨old, hold, hkey⟩ := List.mem_map.mp hkey
      exact hwider _ (hkey ▸ h.keys old hold)
  values entry hentry := by
    rcases Assoc.mem_or_of_mem_putBy hentry with hold | ⟨hvalue, -⟩
    · refine (h.values entry hold).imp_right fun ⟨setting, hsetting, hR⟩ => ?_
      exact ⟨setting, List.mem_append_left _ hsetting, hR⟩
    · exact .inr ⟨(key, v), by simp, hvalue ▸ hR⟩
  covers setting hsetting := by
    have hlast : (key, v) ∈ settings ++ [(key, v)] := by simp
    rcases List.mem_append.mp hsetting with hsetting | hsetting
    · obtain ⟨entry, hentry, hkey, later, hlater, hlaterR⟩ := h.covers setting hsetting
      rcases Assoc.mem_putBy_of_mem hentry key w with hmem | hmem
      · exact ⟨entry, hmem, hkey, later, List.mem_append_left _ hlater, hlaterR⟩
      · exact ⟨_, hmem, hkey, _, hlast, hR⟩
    · rw [List.mem_singleton.mp hsetting]
      obtain ⟨k, hkey, hmem⟩ := Assoc.exists_mem_putBy u.heap.sameKey fields key w
      exact ⟨_, hmem, hkey.imp_right fun hsame => ⟨u, hu, hsame⟩, _, hlast, hR⟩

end Session.Describes

/-! ## Endpoints -/

variable {call : Caller} {s u u' : Session} {v w tree : Value} {e : Endpoint}

/-- What an endpoint begins with. -/
def Endpoint.header (e : Endpoint) : Entries :=
  [(.text "entryPoint", e.entryPoint), (.text "platform", e.platform)]

/-- What is converted of an endpoint. -/
def Endpoint.settings (e : Endpoint) (options : Entries) : Entries :=
  (.text "labels", e.labels) :: (.text e.kind.key, e.trigger) :: options

/-- All that the endpoint leads to is there, and its options are a mapping. -/
structure Heap.KnowsEndpoint (heap : Heap) (e : Endpoint) : Prop where
  header : ∀ entry ∈ e.header, entry.2.IsKept
  parts : ∀ part ∈ [e.labels, e.trigger, e.options], heap.Knows part
  options : ∃ options, heap.content e.options = .mapping options

/-- The tree is the wire form that the value had in a session that was reached. -/
structure Session.HasTree (s : Session) (call : Caller) (c : Session) (v tree : Value) : Prop where
  converts : ∃ u, s.Reaches u ∧ u.Converts call v tree
  isTree : c.heap.IsTree Heap.depth tree

theorem Session.HasTree.mono (h : s.HasTree call u v w) (hu : u.Reaches u') :
    s.HasTree call u' v w where
  converts := h.converts
  isTree := h.isTree.mono hu.keeps

/-- A part of an object that cannot be emptied is read off it at any time. -/
theorem Session.Reaches.on_part {cell : Cell} {name : String} (hu : s.Reaches u)
    (hcell : s.heap.cell? v = some cell) (hplain : cell.attributes = [])
    (hstays : ∀ left, cell.Leaves left → left = cell) (h : cell.fixed? name = some w) :
    (getAttribute call v (Text.ofString name)).on u = (.ok w, u) :=
  on_getAttribute_stored (Heap.stored?_of_cell? (hu.keeps.stays hcell hstays)
    (by rw [Cell.stored?_of_plain hplain, h]))

/-- What is known is converted, and the session goes on. -/
theorem hasTree_of_convert (hcall : AsksQuietly Session.Reaches call) (hknows : s.heap.Knows v)
    (hu : s.Reaches u) {reader : Value}
    (hrun : ((endpointReader call reader).convert v).on u = (.ok tree, u')) :
    u.Reaches u' ∧ s.HasTree call u' v tree := by
  simp only [endpointReader, on_bind, on_heap, next_ok] at hrun
  have hstep : u.Reaches u' := (refl_of Session.Reaches u).after
    (within_setting_wire (within_asking hcall) _) hrun
  have hgives := converts_of_wire hcall (hknows.mono hu.keeps) (refl_of Session.Reaches u) hrun
  exact ⟨hstep, ⟨u, hu, hgives.converts⟩, hgives.isTree.mono hstep.keeps⟩

theorem eq_of_put {reader key : Value} {fields put : Entries}
    (hrun : ((endpointReader call reader).put fields key v).on u = (.ok put, u')) :
    u' = u ∧ put = Assoc.putBy u.heap.sameKey fields key v := by
  simp only [endpointReader, on_reading, Prod.mk.injEq] at hrun
  obtain ⟨hput, rfl⟩ := hrun
  obtain ⟨-, -, hput⟩ := bind_eq_ok_iff.mp hput
  cases hput
  exact ⟨rfl, rfl⟩

theorem describes_of_putOptions (hcall : AsksQuietly Session.Reaches call) {reader : Value}
    {header settings options wire fields : Entries}
    (hknows : ∀ option ∈ options, s.heap.Knows option.2) (hu : s.Reaches u)
    (hwire : s.Describes header settings (s.HasTree call u) wire)
    (hrun : ((endpointReader call reader).putOptions wire options).on u = (.ok fields, u')) :
    s.Describes header (settings ++ options) (s.HasTree call u') fields := by
  induction options generalizing settings wire u with
  | nil =>
    cases hrun
    rwa [List.append_nil]
  | cons option rest ih =>
    obtain ⟨key, v⟩ := option
    rw [EndpointReader.putOptions, on_bind, next_eq_ok_iff] at hrun
    obtain ⟨tree, mid, hconvert, hrun⟩ := hrun
    rw [on_bind, next_eq_ok_iff] at hrun
    obtain ⟨put, mid', hput, hrun⟩ := hrun
    obtain ⟨rfl, rfl⟩ := eq_of_put hput
    obtain ⟨hstep, htree⟩ := hasTree_of_convert hcall (hknows _ List.mem_cons_self) hu hconvert
    have hmid := trans_of Session.Reaches hu hstep
    have hnext := (hwire.imp fun _ _ h => h.mono hstep).put hmid key htree
    have hrest := ih (fun option hoption => hknows option (List.mem_cons_of_mem _ hoption)) hmid
      hnext hrun
    rwa [List.append_assoc] at hrest

theorem on_fromEntries_of_mapping {v : Value} {entries : Entries}
    (hcontent : u.heap.content v = .mapping entries) :
    (fromEntries call v fun _ entries => .ok entries).on u = (.ok entries, u) := by
  simp [fromEntries, listedEntries, Heap.entries?, hcontent]

theorem describes_header {R : Value → Value → Prop} {labels : Value} (hR : R e.labels labels) :
    s.Describes e.header [(.text "labels", e.labels)] R
      ([(Value.text "entryPoint", e.entryPoint)] ++
        (e.platform.given?.map fun v => (Value.text "platform", v)).toList ++
        [(.text "labels", labels)]) := by
  have hgiven : e.platform.given? = none ∨ e.platform.given? = some e.platform := by
    unfold Value.given?
    split
    · exact .inl rfl
    · exact .inr rfl
  generalize hheader : [(Value.text "entryPoint", e.entryPoint)] ++
    (e.platform.given?.map fun v => (Value.text "platform", v)).toList = header
  have hmem : ∀ entry ∈ header, entry ∈ e.header := by
    rcases hgiven with h | h <;> rw [← hheader, h] <;> simp [Endpoint.header]
  refine ⟨fun entry hentry => ?_, fun entry hentry => ?_, fun setting hsetting => ?_⟩
  · rcases List.mem_append.mp hentry with h | h
    · exact List.mem_map_of_mem (List.mem_append_left _ (hmem entry h))
    · simp [List.mem_singleton.mp h]
  · rcases List.mem_append.mp hentry with h | h
    · exact .inl (hmem entry h)
    · rw [List.mem_singleton.mp h]
      exact .inr ⟨_, List.mem_cons_self, hR⟩
  · rw [List.mem_singleton.mp hsetting]
    exact ⟨_, List.mem_append_right _ List.mem_cons_self, .inl rfl, _, List.mem_cons_self, hR⟩

/-- The tree is an endpoint's header with its labels, its trigger and the options that it has at some
time behind, each converted. -/
def Session.HasEndpointTree (s : Session) (call : Caller) (c : Session) (v tree : Value) : Prop :=
  ∃ e u options fields, s.heap.cell? v = some (.endpoint e) ∧ s.Reaches u ∧
    u.heap.content e.options = .mapping options ∧ tree = .mapping fields ∧
    s.Describes e.header (e.settings options) (s.HasTree call c) fields

theorem Session.HasEndpointTree.mono (h : s.HasEndpointTree call u v w) (hu : u.Reaches u') :
    s.HasEndpointTree call u' v w := by
  obtain ⟨e, mid, options, fields, hcell, hmid, hoptions, hw, hdescribes⟩ := h
  exact ⟨e, mid, options, fields, hcell, hmid, hoptions, hw, hdescribes.imp fun _ _ h => h.mono hu⟩

theorem hasEndpointTree_of_wire (hcall : AsksQuietly Session.Reaches call)
    (hcell : s.heap.cell? v = some (.endpoint e)) (hknows : s.heap.KnowsEndpoint e)
    (hu : s.Reaches u) (hrun : (endpointWire call v).on u = (.ok w, u')) :
    s.HasEndpointTree call u' v w := by
  have hpart : ∀ {mid : Session} {name : String} {part : Value}, s.Reaches mid →
      (Cell.endpoint e).fixed? name = some part →
      ((endpointReader call v).part name).on mid = (.ok part, mid) := fun hmid hfixed =>
    hmid.on_part hcell rfl (fun _ h => by cases h; rfl) hfixed
  rw [endpointWire, EndpointReader.wire, on_bind, hpart hu rfl, next_ok, on_bind, hpart hu rfl,
    next_ok, on_bind, hpart hu rfl, next_ok, on_bind, next_eq_ok_iff] at hrun
  obtain ⟨labels, mid, hlabels, hrun⟩ := hrun
  obtain ⟨hstep, hlabelsTree⟩ := hasTree_of_convert hcall (hknows.parts _ (by simp)) hu hlabels
  have hmid := trans_of Session.Reaches hu hstep
  rw [on_bind, hpart hmid rfl, next_ok, on_bind, next_eq_ok_iff] at hrun
  obtain ⟨trigger, mid', htrigger, hrun⟩ := hrun
  obtain ⟨hstep', htriggerTree⟩ := hasTree_of_convert hcall (hknows.parts _ (by simp)) hmid htrigger
  have hmid' := trans_of Session.Reaches hmid hstep'
  rw [on_bind, hpart hmid' rfl, next_ok, on_bind, next_eq_ok_iff] at hrun
  obtain ⟨wire, last, hput, hrun⟩ := hrun
  obtain ⟨rfl, rfl⟩ := eq_of_put hput
  rw [on_bind, hpart hmid' rfl, next_ok] at hrun
  have hbase := (describes_header (hlabelsTree.mono hstep')).put hmid' (.text e.kind.key)
    htriggerTree
  obtain ⟨_, hmapping⟩ := hknows.options
  obtain ⟨options, hoptions⟩ := hmid'.keeps.mapping hmapping
  have hentries : ((endpointReader call v).entries e.options).on last = (.ok options, last) :=
    on_fromEntries_of_mapping hoptions
  rw [on_bind, hentries, next_ok, on_bind, next_eq_ok_iff] at hrun
  obtain ⟨fields, _, hfields, hrun⟩ := hrun
  cases hrun
  -- What is left of the options was among them at the start.
  have hknown : ∀ option ∈ options, s.heap.Knows option.2 := by
    intro option hoption
    have hpart : option.2 ∈ last.heap.parts e.options := by
      rw [Heap.parts, hoptions]
      exact List.mem_map_of_mem hoption
    have hall : s.heap.Knows e.options := hknows.parts _ (by simp)
    exact hall.part (hmid'.keeps.parts hall.isSound hpart)
  exact ⟨e, last, options, fields, hcell, hmid', hoptions, rfl,
    describes_of_putOptions hcall hknown hmid' hbase hfields⟩

end FunctionManifest
