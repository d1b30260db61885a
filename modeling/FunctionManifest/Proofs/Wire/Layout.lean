import FunctionManifest.Proofs.Manifest.RequiredApi
import FunctionManifest.Proofs.Wire.Endpoint
import FunctionManifest.Proofs.Wire.Sparing

/-!
# The layout of endpoints

An endpoint whose options have keys of their own is laid out field by field: nothing that is put
takes the place of something else. Its options cannot be emptied while the rest is converted.
-/

namespace FunctionManifest

open Eval

/-! ## Putting behind -/

namespace Assoc

variable {α β : Type} {same : α → α → Bool} {entries : List (α × β)} {key : α}

theorem putBy_of_new (h : ∀ entry ∈ entries, same entry.1 key = false) (value : β) :
    putBy same entries key value = entries ++ [(key, value)] := by
  obtain ⟨-, -, hput⟩ | ⟨before, k, old, after, rfl, hsame, -, -⟩ :=
    putBy_cases same entries key value
  · exact hput
  · have hnew := h (k, old) (by simp)
    rw [hsame] at hnew
    cases hnew

end Assoc

/-- A text that no entry has for its key goes behind all of them. -/
theorem Heap.putBy_text (heap : Heap) {entries : Entries} {key : Text}
    (h : Value.text key ∉ entries.map Prod.fst) (v : Value) :
    Assoc.putBy heap.sameKey entries (.text key) v = entries ++ [(.text key, v)] := by
  refine Assoc.putBy_of_new (fun entry hentry => ?_) v
  rw [sameKey_text, beq_eq_false_iff_ne]
  rintro hkey
  exact h (hkey ▸ List.mem_map_of_mem hentry)

/-! ## Wire forms -/

/-- In some session that is come to, converting the value ends so. -/
def Session.Wires (s : Session) (call : Caller) (v : Value) (result : Except Failure Value) : Prop :=
  ∃ u u', s.ComesTo u ∧ ((u.heap.setting v).wire (asking call)).on u = (result, u')

/-- The entries with the wire form of each value, one after the other. -/
def wireFields (call : Caller) : Entries → Eval Entries
  | [] => return []
  | (key, v) :: rest => do
    let tree ← ((← heap).setting v).wire (asking call)
    return (key, tree) :: (← wireFields call rest)

variable {call : Caller} {s t u u' : Session} {v w tree : Value} {e : Endpoint} {size : Nat}

theorem Session.Wires.from_before {result : Except Failure Value} (h : t.Wires call v result)
    (hcomes : s.ComesTo t) : s.Wires call v result := by
  obtain ⟨u, u', hu, hrun⟩ := h
  exact ⟨u, u', hcomes.trans hu, hrun⟩

theorem comesTo_of_wire (hcall : AsksQuietly Session.ComesTo call) {result : Except Failure Value}
    (hrun : ((u.heap.setting v).wire (asking call)).on u = (result, u')) : u.ComesTo u' :=
  (Session.ComesTo.refl u).after (within_setting_wire (within_asking hcall) _) hrun

/-- Either all values have their wire form, or one of them cannot be converted. -/
theorem wires_of_wireFields (hcall : AsksQuietly Session.ComesTo call) {entries : Entries}
    {result : Except Failure Entries} (hrun : (wireFields call entries).on u = (result, u')) :
    match result with
    | .ok wired => List.Forall₂ (AtKey fun v tree => u.Wires call v (.ok tree)) entries wired
    | .error failure => ∃ entry ∈ entries, u.Wires call entry.2 (.error failure) := by
  induction entries generalizing u u' result with
  | nil =>
    cases hrun
    exact .nil
  | cons entry rest ih =>
    obtain ⟨key, v⟩ := entry
    rw [wireFields, on_bind, on_heap, next_ok, on_bind] at hrun
    cases hfirst : ((u.heap.setting v).wire (asking call)).on u with
    | mk first mid =>
      have hwires : u.Wires call v first := ⟨u, mid, .refl u, hfirst⟩
      have hmid := comesTo_of_wire hcall hfirst
      rw [hfirst] at hrun
      cases first with
      | error failure =>
        cases hrun
        exact ⟨_, List.mem_cons_self, hwires⟩
      | ok tree =>
        rw [next_ok, on_bind] at hrun
        cases hrest : (wireFields call rest).on mid with
        | mk others last =>
          rw [hrest] at hrun
          cases others with
          | error failure =>
            cases hrun
            obtain ⟨entry, hentry, hfails⟩ := ih hrest
            exact ⟨entry, List.mem_cons_of_mem _ hentry, hfails.from_before hmid⟩
          | ok wired =>
            cases hrun
            refine .cons (.intro hwires) ?_
            exact (ih hrest).imp fun _ _ h => h.imp fun _ h => h.from_before hmid

theorem keys_of_atKey {R : Value → Value → Prop} {entries wired : Entries}
    (h : List.Forall₂ (AtKey R) entries wired) : wired.map Prod.fst = entries.map Prod.fst := by
  induction h with
  | nil => rfl
  | cons hfirst _ ih =>
    cases hfirst
    rw [List.map_cons, List.map_cons, ih]

theorem on_convert (reader v : Value) : ((endpointReader call reader).convert v).on u =
    ((u.heap.setting v).wire (asking call)).on u := by
  simp only [endpointReader, on_bind, on_heap, next_ok]

theorem on_putText {reader : Value} (fields : Entries) (key : Text) (v : Value) :
    ((endpointReader call reader).put fields (.text key) v).on u =
      (.ok (Assoc.putBy u.heap.sameKey fields (.text key) v), u) := by
  simp [endpointReader, Heap.putEntry, Heap.checkKey_text, bind, Except.bind, pure, Except.pure]

/-- Options with keys that are new go behind what is there, each converted by itself. -/
theorem on_putOptions (reader : Value) (wire : Entries) {options : Entries}
    (htexts : ∀ option ∈ options, ∃ key, option.1 = .text key)
    (hnew : ((wire ++ options).map Prod.fst).Nodup) :
    ((endpointReader call reader).putOptions wire options).on u =
      next ((wireFields call options).on u) fun wired => pure (wire ++ wired) := by
  induction options generalizing wire u with
  | nil => simp [EndpointReader.putOptions, wireFields]
  | cons option rest ih =>
    obtain ⟨key, v⟩ := option
    obtain ⟨name, rfl⟩ : ∃ name, key = .text name := htexts _ List.mem_cons_self
    rw [EndpointReader.putOptions, wireFields, on_bind, on_convert, on_bind, on_heap, next_ok,
      on_bind]
    cases hfirst : ((u.heap.setting v).wire (asking call)).on u with
    | mk first mid =>
      cases first with
      | error failure => simp only [next_error]
      | ok tree =>
        have hfirst : Value.text name ∉ wire.map Prod.fst := fun hmem => by
          rw [List.map_append, List.nodup_append] at hnew
          exact hnew.2.2 _ hmem _ List.mem_cons_self rfl
        have hnext : (((wire ++ [(Value.text name, tree)]) ++ rest).map Prod.fst).Nodup := by
          simpa using hnew
        have hrest := ih (u := mid) (wire ++ [(.text name, tree)])
          (fun option hoption => htexts option (List.mem_cons_of_mem _ hoption)) hnext
        rw [next_ok, on_bind, on_putText, next_ok, Heap.putBy_text _ hfirst, hrest, next_ok, on_bind]
        cases (wireFields call rest).on mid with
        | mk others last => cases others <;> simp

/-! ## Endpoints -/

/-- What an endpoint begins with on the wire. -/
def Endpoint.leading (e : Endpoint) : Entries :=
  (.text "entryPoint", e.entryPoint) ::
    (e.platform.given?.map fun v => (Value.text "platform", v)).toList

/-- The options of the endpoint have keys that nothing else of it has, and no call without arguments
can empty them. -/
structure Heap.KeepsOptions (heap : Heap) (e : Endpoint) (options : Entries) : Prop where
  keys : ∀ option ∈ options, ∃ key, option.1 = .text key
  apart : ((e.leading ++ (.text "labels", e.labels) :: (.text e.kind.key, e.trigger) :: options).map
    Prod.fst).Nodup
  kept : ∃ size, heap.clearsBelow size = true ∧ heap.HasNew size e.options options

theorem Heap.KeepsOptions.content {options : Entries} (h : s.heap.KeepsOptions e options)
    (hu : s.ComesTo u) : u.heap.content e.options = .mapping options := by
  obtain ⟨size, hclears, hnew⟩ := h.kept
  rw [Heap.content, (hnew.after hclears hu).cell?]

/-- What is on the wire of an endpoint besides what it begins with. -/
def Endpoint.converted (e : Endpoint) (options : Entries) : Entries :=
  (.text "labels", e.labels) :: (.text e.kind.key, e.trigger) :: options

/-- The wire form of an endpoint has its entry point, its platform if there is one, its labels, its
trigger and all of its options, in this order. It fails only if one of them cannot be converted. -/
theorem on_endpointWire (hcall : AsksQuietly Session.ComesTo call) {options : Entries}
    (hcell : s.heap.cell? v = some (.endpoint e)) (hoptions : s.heap.KeepsOptions e options) :
    (endpointWire call v).on s = next ((wireFields call (e.converted options)).on s) fun fields =>
      pure (.mapping (e.leading ++ fields)) := by
  have hpart : ∀ {mid : Session} {name : String} {part : Value}, s.ComesTo mid →
      (Cell.endpoint e).fixed? name = some part →
      ((endpointReader call v).part name).on mid = (.ok part, mid) := fun hmid hfixed =>
    hmid.reaches.on_part hcell rfl (fun _ h => by cases h; rfl) hfixed
  have hs := Session.ComesTo.refl s
  rw [endpointWire, EndpointReader.wire, on_bind, hpart hs rfl, next_ok, on_bind, hpart hs rfl,
    next_ok, on_bind, hpart hs rfl, next_ok, on_bind, on_convert, Endpoint.converted, wireFields,
    on_bind, on_heap, next_ok, on_bind]
  cases hlabels : ((s.heap.setting e.labels).wire (asking call)).on s with
  | mk labels mid =>
    have hmid := comesTo_of_wire hcall hlabels
    cases labels with
    | error failure => simp only [next_error]
    | ok labels =>
      rw [next_ok, on_bind, hpart hmid rfl, next_ok, on_bind, on_convert, next_ok, on_bind, wireFields,
        on_bind, on_heap, next_ok, on_bind]
      cases htrigger : ((mid.heap.setting e.trigger).wire (asking call)).on mid with
      | mk trigger last =>
        have hlast := hmid.trans (comesTo_of_wire hcall htrigger)
        cases trigger with
        | error failure => simp only [next_error]
        | ok trigger =>
          have hentries : ((endpointReader call v).entries e.options).on last = (.ok options, last) :=
            on_fromEntries_of_mapping (hoptions.content hlast)
          -- The keys are those of the endpoint's own parts, whatever became of their values.
          have hapart := hoptions.apart
          have hkind : Value.text e.kind.key ∉
              (e.leading ++ [(Value.text "labels", labels)]).map Prod.fst := by
            simp only [List.map_append, List.map_cons, List.nodup_append, List.nodup_cons] at hapart ⊢
            grind
          have hput : Assoc.putBy last.heap.sameKey
              ([(Value.text "entryPoint", e.entryPoint)] ++
                (e.platform.given?.map fun v => (Value.text "platform", v)).toList ++
                [(.text "labels", labels)]) (.text e.kind.key) trigger =
              e.leading ++ [(Value.text "labels", labels), (.text e.kind.key, trigger)] := by
            have hnew := Heap.putBy_text last.heap hkind trigger
            simpa [Endpoint.leading] using hnew
          have hnew : ((e.leading ++ [(Value.text "labels", labels), (.text e.kind.key, trigger)] ++
              options).map Prod.fst).Nodup := by simpa using hapart
          rw [next_ok, on_bind, hpart hlast rfl, next_ok, on_bind, on_putText, next_ok, on_bind,
            hpart hlast rfl, next_ok, on_bind, hentries, next_ok, on_bind, hput,
            on_putOptions v _ hoptions.keys hnew, next_ok,
            on_bind]
          cases (wireFields call options).on last with
          | mk others _ => cases others <;> simp

end FunctionManifest
