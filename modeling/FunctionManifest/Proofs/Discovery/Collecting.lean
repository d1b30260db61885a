import FunctionManifest.Loading.Load
import FunctionManifest.Proofs.Assoc
import FunctionManifest.Proofs.Language.Asking

/-!
# What is collected

A function that has the parts its type says can always be collected: its endpoint gets its entry
point, and is kept under its key.
-/

namespace FunctionManifest

open Eval

/-- The function has an endpoint, and required APIs that can be gone through. -/
structure CloudFunction.IsTyped (heap : Heap) (f : CloudFunction) : Prop where
  endpoint : ∃ e, heap.cell? f.endpoint = some (.endpoint e)
  requiredApis : ∃ apis, heap.items? f.requiredApis = some apis

instance (heap : Heap) (f : CloudFunction) : Decidable (f.IsTyped heap) :=
  decidable_of_iff ((∃ e, heap.cell? f.endpoint = some (.endpoint e)) ∧
      (heap.items? f.requiredApis).isSome = true) <| by
    rw [Option.isSome_iff_exists]
    exact ⟨fun h => ⟨h.1, h.2⟩, fun h => ⟨h.endpoint, h.requiredApis⟩⟩

/-- The required APIs that a function lists. -/
def CloudFunction.apis (heap : Heap) (f : CloudFunction) : List Value :=
  (heap.items? f.requiredApis).getD []

theorem CloudFunction.IsTyped.apis_eq {heap before : Heap} {f : CloudFunction}
    (h : heap.Extends before) (hf : f.IsTyped before) : f.apis heap = f.apis before := by
  obtain ⟨items, hitems⟩ := hf.requiredApis
  rw [apis, apis, hitems, h.items? hitems]

theorem CloudFunction.IsTyped.mono {heap before : Heap} {f : CloudFunction}
    (h : heap.Extends before) (hf : f.IsTyped before) : f.IsTyped heap where
  endpoint := hf.endpoint.imp fun _ he => h _ _ he
  requiredApis := hf.requiredApis.imp fun _ ha => h.items? ha

/-! ## The methods of endpoints -/

/-- Asking an endpoint for itself with an entry point makes a new one. -/
theorem on_withEntryPoint {s : Session} {v : Value} {e : Endpoint}
    (h : s.heap.cell? v = some (.endpoint e)) (entryPoint : Text) :
    ∃ made heap, (callAttribute call v "with_entry_point" [.text entryPoint]).on s =
        (.ok made, { s with heap }) ∧
      heap.Extends s.heap ∧
      heap.cell? made = some (.endpoint (e.withEntryPoint (.text entryPoint))) := by
  have hmethod : s.heap.HasMethod v "with_entry_point" .withEntryPoint :=
    .of_cell? h rfl rfl (by decide) (by rfl)
  let asked := (s.heap.allocate (.method .withEntryPoint (some v))).2
  let arguments : Arguments := ⟨[("self", v), ("entry_point", .text entryPoint)], [], []⟩
  have hbind : Method.withEntryPoint.signature.bind [v, .text entryPoint] [] = .ok arguments := rfl
  have hgetSelf : arguments.get "self" = v := rfl
  have hgetPoint : arguments.get "entry_point" = .text entryPoint := rfl
  have hself : asked.cell? v = some (.endpoint e) := Heap.extends_allocate _ _ _ _ h
  let made := asked.allocate (.endpoint (e.withEntryPoint (.text entryPoint)))
  refine ⟨made.1, made.2, ?_, (Heap.extends_allocate _ _).trans (Heap.extends_allocate _ _),
    Heap.cell?_allocate_new _ _⟩
  change (callAttribute (callValue (899 + 1)) _ _ _).on _ = _
  rw [on_callAttribute_method hmethod, hbind, next_ok]
  simp [runMethod, asEndpoint, hself, hgetSelf, hgetPoint, made, asked]

/-! ## One by one -/

/-- The endpoint that a function is kept with: its own, with the entry point of its key. -/
def Found.IsDeployed (old new : Heap) (found : Found) (v : Value) : Prop :=
  ∃ e, old.cell? found.parts.endpoint = some (.endpoint e) ∧
    new.cell? v = some (.endpoint (e.withEntryPoint (.text (entryPointOf found.key))))

theorem Found.IsDeployed.later {old mid new newer : Heap} {found : Found} {v : Value}
    (h : found.IsDeployed mid new v) (hmid : mid.Extends old) (hnew : newer.Extends new)
    (htyped : found.parts.IsTyped old) : found.IsDeployed old newer v := by
  obtain ⟨e, he, hv⟩ := h
  obtain ⟨e', he'⟩ := htyped.endpoint
  have hsame : e' = e := by
    have h := hmid _ _ he'
    rw [he] at h
    cases h
    rfl
  exact ⟨e, hsame ▸ he', hnew _ _ hv⟩

namespace Collection

/-- A collection to which all that was found was added in order, each function with an endpoint that
was made for it. -/
structure Covers (made : Found → Value → Prop) (before : Collection) (found : List Found)
    (collection : Collection) : Prop where
  endpoints : ∃ kept : List (Found × Value), kept.map Prod.fst = found ∧
    (∀ entry ∈ kept, made entry.1 entry.2) ∧
    collection.endpoints =
      Assoc.setAll before.endpoints (kept.map fun entry => (entry.1.key, entry.2))
  handlers : collection.handlers =
    Assoc.setAll before.handlers (found.map fun f => (f.key, f.function))

theorem on_add {s : Session} {found : Found} (h : found.parts.IsTyped s.heap)
    (before : Collection) (hstop : before.stop = none) :
    ∃ collection t, (add collector before found).on s = (.ok collection, t) ∧
      t.heap.Extends s.heap ∧ collection.stop = none ∧
      collection.requiredApis = before.requiredApis ++ found.parts.apis s.heap ∧
      Covers (Found.IsDeployed s.heap t.heap) before [found] collection := by
  obtain ⟨e, he⟩ := h.endpoint
  obtain ⟨apis, hapis⟩ := h.requiredApis
  obtain ⟨made, heap, hrun, hext, hmade⟩ := on_withEntryPoint he (entryPointOf found.key)
  have hitems : heap.items found.parts.requiredApis = .ok apis := by
    simp [Heap.items, hext.items? hapis]
  have hadd : ∃ log, (add collector before found).on s =
      (.ok ⟨Assoc.set before.endpoints found.key made, before.requiredApis ++ apis,
        Assoc.set before.handlers found.key found.function, none⟩, { s with heap, log }) := by
    simp [add, collector, hrun, hitems, hstop]
  obtain ⟨log, hadd⟩ := hadd
  exact ⟨_, _, hadd, hext, rfl, by rw [CloudFunction.apis, hapis]; rfl,
    ⟨[(found, made)], rfl, by simpa using ⟨e, he, hmade⟩, rfl⟩, rfl⟩

theorem on_addAll {old : Heap} {found : List Found} (h : ∀ f ∈ found, f.parts.IsTyped old)
    {s : Session} (hold : s.heap.Extends old) (before : Collection) (hstop : before.stop = none) :
    ∃ collection t, (addAll collector before found).on s = (.ok collection, t) ∧
      t.heap.Extends s.heap ∧ collection.stop = none ∧
      collection.requiredApis = before.requiredApis ++ found.flatMap (·.parts.apis old) ∧
      Covers (Found.IsDeployed old t.heap) before found collection := by
  induction found generalizing s before with
  | nil => exact ⟨before, s, rfl, .refl _, hstop, by simp, ⟨[], rfl, by simp, rfl⟩, rfl⟩
  | cons f rest ih =>
    have hf := h f List.mem_cons_self
    obtain ⟨first, t, hadd, hext, hstopFirst, hapis, hfirst⟩ := on_add (hf.mono hold) before hstop
    obtain ⟨kept, hkept, hmade, hendpoints⟩ := hfirst.endpoints
    obtain ⟨collection, u, hall, hext', hstopRest, hapis', hrest⟩ :=
      ih (fun f hf => h f (List.mem_cons_of_mem _ hf)) (hext.trans hold) first hstopFirst
    obtain ⟨kept', hkept', hmade', hendpoints'⟩ := hrest.endpoints
    refine ⟨collection, u, ?_, hext'.trans hext, hstopRest, ?_, ⟨kept ++ kept', ?_, ?_, ?_⟩, ?_⟩
    · simp [addAll, hadd, hstopFirst, hall]
    · rw [hapis', hapis, hf.apis_eq hold, List.flatMap_cons, List.append_assoc]
    · simp [hkept, hkept']
    · intro entry hentry
      rcases List.mem_append.mp hentry with hin | hin
      · have hf' : entry.1 = f := by simpa [hkept] using List.mem_map_of_mem (f := Prod.fst) hin
        exact (hmade entry hin).later hold hext' (hf' ▸ hf)
      · exact hmade' entry hin
    · rw [hendpoints', hendpoints, List.map_append, Assoc.setAll_append]
    · rw [hrest.handlers, hfirst.handlers]
      rfl

/-- Adding a function ends the collection, or keeps the function with some endpoint. -/
theorem of_add {collector : Collector Eval} {found : Found} {s t : Session}
    {before collection : Collection}
    (h : (add collector before found).on s = (.ok collection, t)) :
    (∃ failure, collection.stop = some failure) ∨
      ∃ v apis, collection = ⟨Assoc.set before.endpoints found.key v, apis,
        Assoc.set before.handlers found.key found.function, before.stop⟩ := by
  rw [add, on_bind, next_eq_ok_iff] at h
  obtain ⟨deployed, u, -, h⟩ := h
  cases deployed with
  | error failure =>
    cases h
    exact Or.inl ⟨failure, rfl⟩
  | ok v =>
    rw [on_bind, next_eq_ok_iff] at h
    obtain ⟨apis, u, -, h⟩ := h
    cases apis with
    | error failure =>
      cases h
      exact Or.inl ⟨failure, rfl⟩
    | ok apis =>
      rw [on_bind, next_eq_ok_iff] at h
      obtain ⟨-, u, -, h⟩ := h
      cases h
      exact Or.inr ⟨v, _, rfl⟩

/-- A collection that nothing ended has everything, however endpoints are made. -/
theorem Covers.of_addAll {collector : Collector Eval} {found : List Found} {s t : Session}
    {before collection : Collection}
    (h : (addAll collector before found).on s = (.ok collection, t))
    (hstop : collection.stop = none) :
    Covers (fun _ _ => True) before found collection := by
  induction found generalizing s before with
  | nil =>
    cases h
    exact ⟨⟨[], rfl, by simp, rfl⟩, rfl⟩
  | cons f rest ih =>
    rw [addAll, on_bind, next_eq_ok_iff] at h
    obtain ⟨first, u, hadd, hrest⟩ := h
    cases hfirst : first.stop with
    | some failure =>
      simp only [hfirst] at hrest
      cases hrest
      rw [hfirst] at hstop
      cases hstop
    | none =>
      simp only [hfirst] at hrest
      obtain ⟨⟨kept, hkept, -, hendpoints⟩, hhandlers⟩ := ih hrest
      rcases of_add hadd with ⟨failure, hended⟩ | ⟨v, apis, rfl⟩
      · rw [hfirst] at hended
        cases hended
      · refine ⟨⟨(f, v) :: kept, by simp [hkept], by simp, ?_⟩, ?_⟩
        · rw [hendpoints]
          rfl
        · rw [hhandlers]
          rfl

/-! ## Under a key -/

section

variable {made : Found → Value → Prop} {collection : Collection}

/-- The endpoints and the handlers are two sides of one dictionary. -/
theorem Covers.kept {found : List Found} (h : Covers made .empty found collection) :
    ∃ kept : List (Text × Found × Value), (kept.map Prod.fst).Nodup ∧
      (∀ entry ∈ kept, entry.2.1 ∈ found ∧ entry.2.1.key = entry.1 ∧ made entry.2.1 entry.2.2) ∧
      collection.endpoints = kept.map (fun entry => (entry.1, entry.2.2)) ∧
      collection.handlers = kept.map fun entry => (entry.1, entry.2.1.function) := by
  obtain ⟨pairs, rfl, hmade, hendpoints⟩ := h.endpoints
  have hempty : (([] : List (Text × Found × Value)).map Prod.fst).Nodup := List.nodup_nil
  refine ⟨Assoc.setAll [] (pairs.map fun pair => (pair.1.key, pair)),
    Assoc.nodup_keys_setAll hempty _, fun entry hentry => ?_, ?_, ?_⟩
  · have hnew := (Assoc.mem_of_mem_setAll hentry).resolve_left List.not_mem_nil
    obtain ⟨pair, hpair, rfl⟩ := List.mem_map.mp hnew
    exact ⟨List.mem_map_of_mem hpair, rfl, hmade pair hpair⟩
  · rw [hendpoints, Assoc.map_setAll Prod.snd, List.map_map]
    rfl
  · rw [h.handlers, Assoc.map_setAll fun pair : Found × Value => pair.1.function, List.map_map,
      List.map_map]
    rfl

theorem Covers.contains_endpoints {found : List Found}
    (h : Covers made .empty found collection) (key : Text) :
    Assoc.contains collection.endpoints key = true ↔ ∃ f ∈ found, f.key = key := by
  obtain ⟨kept, rfl, -, hendpoints⟩ := h.endpoints
  rw [hendpoints, Assoc.contains_setAll]
  simp [empty, Assoc.contains]

/-- The endpoint under a key is that of the last function found under it. -/
theorem Covers.get?_endpoints {f : Found} {earlier later : List Found}
    (h : Covers made .empty (earlier ++ f :: later) collection)
    (hlast : ∀ f' ∈ later, f'.key ≠ f.key) :
    ∃ v, Assoc.get? collection.endpoints f.key = some v ∧ made f v := by
  obtain ⟨kept, hkept, hdeployed, hendpoints⟩ := h.endpoints
  obtain ⟨first, rest, rfl, hfirst, hrest⟩ := List.map_eq_append_iff.mp hkept
  obtain ⟨⟨f', v⟩, after, rfl, rfl, hafter⟩ := List.map_eq_cons_iff.mp hrest
  refine ⟨v, ?_, hdeployed (f', v) (by simp)⟩
  rw [hendpoints, List.map_append, List.map_cons]
  refine Assoc.get?_setAll_of_last _ _ _ _ _ ?_
  intro entry hentry
  obtain ⟨kept, hin, rfl⟩ := List.mem_map.mp hentry
  exact hlast kept.1 (hafter ▸ List.mem_map_of_mem hin)

/-- The handler under a key is the last function found under it. -/
theorem Covers.get?_handlers {f : Found} {earlier later : List Found}
    (h : Covers made .empty (earlier ++ f :: later) collection)
    (hlast : ∀ f' ∈ later, f'.key ≠ f.key) :
    Assoc.get? collection.handlers f.key = some f.function := by
  rw [h.handlers, List.map_append, List.map_cons]
  refine Assoc.get?_setAll_of_last _ _ _ _ _ ?_
  rintro entry hentry
  obtain ⟨f', hf', rfl⟩ := List.mem_map.mp hentry
  exact hlast f' hf'

end

end Collection

/-- If the functions that a walk finds have the parts their type says, all of them are collected,
and the collection ends as the walk does. -/
theorem Walk.on_collect {walk : Walk} {s : Session}
    (h : ∀ f ∈ walk.found, f.parts.IsTyped s.heap) :
    ∃ collection t, (walk.collect collector).on s = (.ok collection, t) ∧
      t.heap.Extends s.heap ∧ collection.stop = walk.stop ∧
      collection.requiredApis = walk.found.flatMap (·.parts.apis s.heap) ∧
      Collection.Covers (Found.IsDeployed s.heap t.heap) .empty walk.found collection := by
  obtain ⟨collection, t, hall, hext, hstop, hapis, hcovers⟩ :=
    Collection.on_addAll h (.refl _) .empty rfl
  refine ⟨{ collection with stop := walk.stop }, t, ?_, hext, rfl, hapis, hcovers.endpoints,
    hcovers.handlers⟩
  simp [Walk.collect, hall, hstop]

end FunctionManifest
