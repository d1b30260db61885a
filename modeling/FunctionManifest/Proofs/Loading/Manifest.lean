import FunctionManifest.Proofs.Discovery.Walk
import FunctionManifest.Proofs.Loading.Load
import FunctionManifest.Proofs.Manifest.Stack

/-!
# What a load makes

A load that succeeds gives a stack whose parts fit together: the endpoints are those of the handlers
under the same keys, the required APIs are those of the handlers, each once, and the params are the
specs of what was declared last under each name in the registry of the load.
-/

namespace FunctionManifest

open Eval Session

variable {s t u : Session} {source : Text} {config : Config} {loaded : LoadedStack} {module : Nat}

/-! ## What fits together -/

/-- The endpoint under its key, with its own platform or else this one. -/
def Endpoint.deployed (e : Endpoint) (key : Text) (platform : Value) : Endpoint :=
  { e with
    entryPoint := .text (entryPointOf key)
    platform := e.platform.given?.getD platform }

namespace Heap

/-- A mapping with the keys of the handlers in their order, and under each key with the endpoint of
the function that is the handler. -/
def HasEndpoints (heap : Heap) (v : Value) (handlers : Fields) (platform : Value) : Prop :=
  ∃ endpoints : Fields,
    heap.cell? v = some (.mapping (endpoints.map fun entry => (.text entry.1, entry.2))) ∧
    (handlers.map Prod.fst).Nodup ∧
    List.Forall₂ (fun handler endpoint => endpoint.1 = handler.1 ∧ ∃ f e,
      heap.cell? handler.2 = some (.function f) ∧ heap.cell? f.endpoint = some (.endpoint e) ∧
      heap.cell? endpoint.2 = some (.endpoint (e.deployed handler.1 platform))) handlers endpoints

/-- A list of APIs that are all different, with every reason that a handler gives. -/
def HasApis (heap : Heap) (v : Value) (handlers : Fields) : Prop :=
  ∃ requirements, heap.ListsApis v requirements ∧
    ∀ handler ∈ handlers, ∀ f, heap.cell? handler.2 = some (.function f) →
      ∀ api ∈ f.apis heap, api ∈ requirements

end Heap

/-- The parts of a stack fit the handlers and the declarations. -/
structure Stack.Fits (stack : Stack) (heap before : Heap) (platform : Value) (handlers : Fields)
    (declared : List (Value × Text)) : Prop where
  endpoints : heap.HasEndpoints stack.endpoints handlers platform
  requiredApis : heap.HasApis stack.requiredApis handlers
  params : heap.HasSpecs before stack.params declared
  names : (declared.map Prod.snd).Nodup

/-! ## Steps of a load -/

/-- A load that succeeds loads a module, collects what it has, and makes a stack of it. -/
theorem loadStack_eq_ok (h : (loadStack source config).on s = (.ok loaded, t)) :
    ∃ module u collection params w,
      (loadModule source config.entryFile).on s.inside = (.ok module, u) ∧
      (collectModule config (.ref s.heap.cells.size) module).on u =
        (.ok (collection, params), w) ∧
      (finishStack source config collection params).on w.left = (.ok loaded, t) := by
  have hregistry : (enterRegistry none).on s = (.ok (.ref s.heap.cells.size), s.inside) := rfl
  have hleave : ∀ u : Session, leaveRegistry.on u = (.ok (), u.left) := fun _ => rfl
  simp only [loadStack, inNewRegistry, on_bind, on_ensuring, hregistry, hleave, next_ok,
    on_ofExcept] at h
  obtain ⟨⟨collection, params⟩, w, hcollect, hfinish⟩ := next_eq_ok_iff.mp h
  obtain ⟨hcollected, rfl⟩ := Prod.mk.inj hcollect
  have hsource : (collectSource source config (.ref s.heap.cells.size)).on s.inside =
      (.ok (collection, params),
        ((collectSource source config (.ref s.heap.cells.size)).on s.inside).2) :=
    Prod.ext hcollected rfl
  obtain ⟨module, u, hload, hmodule⟩ := next_eq_ok_iff.mp ((on_bind _ _ _).symm.trans hsource)
  exact ⟨module, u, collection, params, _, hload, hmodule, hfinish⟩

/-- While a module is loaded, its declarations are recorded. -/
theorem records_loadModule (hs : s.Sound) {entryFile : Value}
    (h : (loadModule source entryFile).on s = (.ok module, u)) : s.Records u := by
  obtain ⟨entry, v, hread, hload⟩ := next_eq_ok_iff.mp ((on_bind _ _ _).symm.trans h)
  have hkept := readEntry_kept source entryFile s
  rw [hread] at hkept
  subst hkept
  have hcontinues := (on_loadEntry hs entry rfl).1
  rw [hload] at hcontinues
  exact hcontinues.records

theorem on_collectFrom_eq (groups : Text) (v : Value) (s : Session) :
    (collectFrom groups v).on s =
      ((s.heap.discover s.project groups v).collect collector).on s := by
  rw [collectFrom, on_bind, on_get, next_ok]

/-- Functions are collected first, all of them, and then the params as far as they are wanted. -/
theorem collectModule_eq_ok {registry params : Value} {collection : Collection} {w : Session}
    (h : (collectModule config registry module).on u = (.ok (collection, params), w)) :
    ∃ v, (collectFrom [] (.ref module)).on u = (.ok collection, v) ∧ collection.stop = none ∧
      (if v.heap.isTruthy config.includeParams then callAttribute call registry "specs" []
        else intern (.list [])).on v = (.ok params, w) := by
  rw [collectModule, on_bind, next_eq_ok_iff] at h
  obtain ⟨found, v, hcollect, h⟩ := h
  cases hstop : found.stop with
  | some failure => simp [hstop] at h
  | none =>
    simp only [hstop, on_bind, on_heap, next_ok] at h
    have hmade : next ((if v.heap.isTruthy config.includeParams then
          callAttribute call registry "specs" [] else intern (.list [])).on v)
        (fun made => pure (found, made)) = (.ok (collection, params), w) := by
      cases htruthy : v.heap.isTruthy config.includeParams <;> simpa [htruthy] using h
    obtain ⟨made, w', hparams, hpair⟩ := next_eq_ok_iff.mp hmade
    cases hpair
    exact ⟨v, hcollect, hstop, hparams⟩

/-- What was declared last under each name, and not cleared, is asked for its spec. -/
theorem makes_params {heap : Heap} {registry : Value} {declared : List (Value × Text)}
    (h : heap.cell? registry = some (.registry ⟨declared.map Prod.fst⟩))
    (hnames : ∀ d ∈ declared, heap.declaredName? d.1 = some d.2)
    (hprompts : ∀ d ∈ declared, heap.IsPrompted d.1) (includes : Bool) :
    Makes heap (if includes then callAttribute call registry "specs" [] else intern (.list []))
      fun after params => after.HasSpecs heap params (if includes then declared else []) := by
  cases includes with
  | true => exact makes_specs h hnames hprompts
  | false =>
    have hempty : ∀ v ∈ ([] : List Value), v.IsKept := fun _ h => absurd h List.not_mem_nil
    exact (makes_intern_list hempty).imp fun after params _ hlist => ⟨[], hlist, .nil⟩

/-! ## Declarations of a load -/

namespace Session

/-- What was declared since in the registry of a load, and where this was cleared. -/
def declaredSince (s u : Session) : List (Option Declaration) :=
  historyAt s.heap.cells.size (u.changes.drop s.changes.length)

/-- The same, each declaration with its name. -/
def historySince (s u : Session) : List (Option (Value × Text)) :=
  (s.declaredSince u).map (Option.map fun d => (d.object, d.name.getD []))

/-- Whatever was declared since had a text for its name, and was given no other. -/
structure KeepsNames (s u : Session) : Prop where
  named : ∀ d, some d ∈ s.declaredSince u → ∃ name, d.name = some name
  kept : ∀ d, some d ∈ s.declaredSince u → ¬Renames (u.settings.drop s.settings.length) d.object

instance (s u : Session) : Decidable (s.KeepsNames u) :=
  decidable_of_iff ((s.declaredSince u).all fun step => step.all fun d =>
      d.name.isSome && decide (¬Renames (u.settings.drop s.settings.length) d.object)) <| by
    simp only [List.all_eq_true, Option.all_eq_true, Bool.and_eq_true, decide_eq_true_eq,
      Option.isSome_iff_exists]
    exact ⟨fun h => ⟨fun d hd => (h _ hd d rfl).1, fun d hd => (h _ hd d rfl).2⟩,
      fun h step hstep d hd => ⟨h.named d (hd ▸ hstep), h.kept d (hd ▸ hstep)⟩⟩

theorem KeepsNames.history (h : s.KeepsNames u) : Named (s.declaredSince u) (s.historySince u) := by
  rw [Named, historySince, List.map_map]
  refine (List.map_id _).symm.trans (List.map_congr_left fun step hstep => ?_)
  cases step with
  | none => rfl
  | some d =>
    obtain ⟨object, own⟩ := d
    obtain ⟨name, rfl⟩ := h.named _ hstep
    rfl

theorem KeepsNames.not_renames (h : s.KeepsNames u) {d : Value × Text}
    (hd : some d ∈ s.historySince u) : ¬Renames (u.settings.drop s.settings.length) d.1 := by
  obtain ⟨step, hstep, hmade⟩ := List.mem_map.mp hd
  obtain ⟨declared, rfl, rfl⟩ := Option.map_eq_some_iff.mp hmade
  exact h.kept declared hstep

end Session

/-- Once the module is loaded, the registry has what stands of its history. -/
theorem registry_of_loadModule (hs : s.Sound) {entryFile : Value}
    (hload : (loadModule source entryFile).on s.inside = (.ok module, u))
    (hnames : s.KeepsNames u) :
    u.heap.cell? (.ref s.heap.cells.size) =
        some (.registry ⟨(standing (s.historySince u)).map Prod.fst⟩) ∧
      ∀ d ∈ standing (s.historySince u), u.heap.declaredName? d.1 = some d.2 := by
  obtain ⟨changes, settings, hchanges, hsettings, hrecorded⟩ := records_loadModule hs.inside hload
  have hdrop : u.changes.drop s.changes.length = changes := by
    rw [hchanges]
    exact List.drop_left
  have hdropSettings : u.settings.drop s.settings.length = settings := by
    rw [hsettings]
    exact List.drop_left
  have hempty : s.inside.heap.cells[s.heap.cells.size]? = some (.registry .empty) :=
    Heap.cell?_allocate_new _ _
  have hhistory := hnames.history
  rw [declaredSince, hdrop] at hhistory
  exact hrecorded.contents hempty hhistory fun d hd => hdropSettings ▸ hnames.not_renames hd

/-! ## Whole loads -/

/-- What a walk finds, and what stands declared, has the parts that its type says. -/
structure Session.WellTyped (u : Session) (module : Nat) (declared : List (Value × Text)) :
    Prop where
  functions : ∀ f ∈ (u.heap.discover u.project [] (.ref module)).found, f.parts.IsTyped u.heap
  apis : ∀ f ∈ (u.heap.discover u.project [] (.ref module)).found,
    ∀ v ∈ f.parts.apis u.heap, ∃ name reason, u.heap.Requires v name reason
  prompts : ∀ d ∈ declared, u.heap.IsPrompted d.1

instance (u : Session) (module : Nat) (declared : List (Value × Text)) :
    Decidable (u.WellTyped module declared) :=
  decidable_of_iff
    ((∀ f ∈ (u.heap.discover u.project [] (.ref module)).found, f.parts.IsTyped u.heap) ∧
      (∀ f ∈ (u.heap.discover u.project [] (.ref module)).found,
        ∀ v ∈ f.parts.apis u.heap, ∃ name reason, u.heap.Requires v name reason) ∧
      ∀ d ∈ declared, u.heap.IsPrompted d.1)
    ⟨fun h => ⟨h.1, h.2.1, h.2.2⟩, fun h => ⟨h.functions, h.apis, h.prompts⟩⟩

/-- What a stack is made of, found in the heap that its making leaves. -/
theorem makes_finishStack {heap : Heap} {collection : Collection} {params : Value}
    (hendpoints : ∀ entry ∈ collection.endpoints, ∃ e, heap.cell? entry.2 = some (.endpoint e))
    (hapis : ∀ v ∈ collection.requiredApis, ∃ name reason, heap.Requires v name reason) :
    Makes heap (finishStack source config collection params) fun after loaded =>
      loaded.handlers = collection.handlers ∧
      ∃ stack, after.cell? loaded.stack = some (.stack stack) ∧ stack.params = params ∧
        after.HasFilled heap stack.endpoints config.platform collection.endpoints ∧
        after.ListsApis stack.requiredApis collection.requiredApis := by
  refine (makes_stackOf hendpoints hapis).bind fun mid v _ hmade => ?_
  refine makes_heap.bind fun _ found hfound _ => ?_
  refine (makes_log _ _ _).bind fun _ _ hlogged _ => makes_pure fun after hafter => ⟨rfl, ?_⟩
  have hext := hafter.trans (hlogged.trans hfound)
  obtain ⟨stack, hstack, hparams, hfilled, hlists⟩ := hmade
  exact ⟨stack, hext _ _ hstack, hparams, hfilled.mono hext, hlists.mono hext⟩

/-- The endpoints that were collected, once they have platforms, are those of the handlers. -/
theorem hasEndpoints_of_filled {before mid heap : Heap} {endpoints platform : Value}
    {kept : List (Text × Found × Value)} (hmid : mid.Extends before) (hheap : heap.Extends mid)
    (hnodup : (kept.map Prod.fst).Nodup)
    (hcells : ∀ entry ∈ kept, before.cell? entry.2.1.function = some (.function entry.2.1.parts))
    (hmade : ∀ entry ∈ kept, entry.2.1.key = entry.1 ∧ entry.2.1.IsDeployed before mid entry.2.2)
    (hfilled : heap.HasFilled mid endpoints platform (kept.map fun entry => (entry.1, entry.2.2))) :
    heap.HasEndpoints endpoints (kept.map fun entry => (entry.1, entry.2.1.function)) platform := by
  obtain ⟨filled, hcell, hfills⟩ := hfilled
  rw [Heap.Fills, List.forall₂_map_left_iff] at hfills
  refine ⟨filled, hcell, by rwa [List.map_map], ?_⟩
  rw [List.forall₂_map_left_iff]
  have hall := (List.forall₂_and_left _ _).mpr
    ⟨fun entry hentry => And.intro (hcells entry hentry) (hmade entry hentry), hfills⟩
  refine hall.imp fun entry new h => ?_
  obtain ⟨⟨hfunction, hkey, e, he, hdeployed⟩, hsame, hnew⟩ := h
  have hext := hheap.trans hmid
  refine ⟨hsame, entry.2.1.parts, e, hext _ _ hfunction, hext _ _ he, ?_⟩
  rw [← hkey]
  exact hnew _ hdeployed

/-- The APIs of all functions that were found include those of the handlers. -/
theorem hasApis_of_lists {before heap : Heap} {listed : Value} {found : List Found}
    {kept : List (Text × Found × Value)} (hheap : heap.Extends before)
    (htyped : ∀ f ∈ found, f.parts.IsTyped before) (hkept : ∀ entry ∈ kept, entry.2.1 ∈ found)
    (hcells : ∀ entry ∈ kept, before.cell? entry.2.1.function = some (.function entry.2.1.parts))
    (hlists : heap.ListsApis listed (found.flatMap (·.parts.apis before))) :
    heap.HasApis listed (kept.map fun entry => (entry.1, entry.2.1.function)) := by
  refine ⟨_, hlists, fun handler hhandler f hf api hapi => ?_⟩
  obtain ⟨entry, hentry, rfl⟩ := List.mem_map.mp hhandler
  have hfound := hkept entry hentry
  rw [hheap _ _ (hcells entry hentry), Option.some.injEq, Cell.function.injEq] at hf
  rw [← hf, (htyped _ hfound).apis_eq hheap] at hapi
  exact List.mem_flatMap.mpr ⟨_, hfound, hapi⟩

/-- A load that succeeds gives a stack that fits its handlers and what stands declared. -/
theorem loadStack_fits (hs : s.Sound)
    (hload : (loadModule source config.entryFile).on s.inside = (.ok module, u))
    (hnames : s.KeepsNames u) (htyped : u.WellTyped module (standing (s.historySince u)))
    {includes : Bool} (hincludes : config.includeParams = .bool includes)
    (hrun : (loadStack source config).on s = (.ok loaded, t)) :
    ∃ stack, t.heap.cell? loaded.stack = some (.stack stack) ∧
      stack.Fits t.heap u.heap config.platform loaded.handlers
        (if includes then standing (s.historySince u) else []) := by
  obtain ⟨module', u', collection, params, w, hload', hcollect, hfinish⟩ := loadStack_eq_ok hrun
  obtain ⟨hmodule, rfl⟩ := Prod.mk.inj (hload.symm.trans hload')
  obtain rfl := Except.ok.inj hmodule
  obtain ⟨v, hfound, -, hparams⟩ := collectModule_eq_ok hcollect
  -- What was collected.
  obtain ⟨collected, v', hcollected, hv, -, hapis, hcovers⟩ := Walk.on_collect htyped.functions
  rw [on_collectFrom_eq, hcollected, Prod.mk.injEq, Except.ok.injEq] at hfound
  obtain ⟨rfl, rfl⟩ := hfound
  obtain ⟨kept, hnodup, hkept, hendpoints, hhandlers⟩ := hcovers.kept
  have hfunctions : ∀ entry ∈ kept,
      u.heap.cell? entry.2.1.function = some (.function entry.2.1.parts) :=
    fun entry hentry => Heap.cell?_of_discovered _ (hkept entry hentry).1
  -- What its params are.
  obtain ⟨hregistry, hdeclared⟩ := registry_of_loadModule hs hload hnames
  have htruthy : v'.heap.isTruthy config.includeParams = includes := by rw [hincludes]; rfl
  rw [htruthy] at hparams
  obtain ⟨hw, hspecs⟩ := makes_params hregistry hdeclared htyped.prompts includes _ _ _ hv hparams
  -- What the stack is made of.
  have hdeployed : ∀ entry ∈ kept,
      entry.2.1.key = entry.1 ∧ entry.2.1.IsDeployed u.heap w.heap entry.2.2 := by
    intro entry hentry
    obtain ⟨hmem, hkey, hdeployed⟩ := hkept entry hentry
    exact ⟨hkey, hdeployed.later (.refl _) hw (htyped.functions _ hmem)⟩
  have hcells : ∀ entry ∈ collected.endpoints, ∃ e, w.heap.cell? entry.2 = some (.endpoint e) := by
    rw [hendpoints, List.forall_mem_map]
    exact fun entry hentry => (hdeployed entry hentry).2.elim fun _ he => ⟨_, he.2⟩
  have hrequires : ∀ api ∈ collected.requiredApis,
      ∃ name reason, w.heap.Requires api name reason := by
    intro api hapi
    rw [hapis, List.mem_flatMap] at hapi
    obtain ⟨f, hf, hlisted⟩ := hapi
    exact (htyped.apis f hf api hlisted).imp fun _ => Exists.imp fun _ => .mono (hw.trans hv)
  obtain ⟨ht, hsame, stack, hstack, hsameParams, hfilled, hlists⟩ :=
    makes_finishStack hcells hrequires w.left loaded t (.refl w.heap) hfinish
  rw [hendpoints] at hfilled
  rw [hapis] at hlists
  rw [hhandlers] at hsame
  refine ⟨stack, hstack, ?_, ?_, ?_, ?_⟩
  · rw [hsame]
    exact hasEndpoints_of_filled (hw.trans hv) ht hnodup hfunctions hdeployed hfilled
  · rw [hsame]
    exact hasApis_of_lists ((ht.trans hw).trans hv) htyped.functions
      (fun entry hentry => (hkept entry hentry).1) hfunctions hlists
  · rw [hsameParams]
    exact hspecs.mono ht
  · cases includes with
    | true => exact nodup_standing _
    | false => exact List.nodup_nil

/-- A param that is cleared, one that is declared again, and one that asks. Two functions need the
same API, one of them in a group. -/
def shop : Session :=
  .fresh (projectOf
    [(["main.py"],
      [declaration "OLD", .assign "cleared" (.apply .clearParams [] []), declaration "REGION",
        .assign "size" (.apply (.declareParam .string) [.text "SIZE"]
          [("input", .apply (.select false) [.text "S", .text "L"] [])]),
        declaration "REGION",
        .assign "paid" (.triggered .message [.text "payments"] [] "paid"),
        .assign "api" (.mapping [(.text "ping", .triggered .event [.text "ping"]
          [("required_apis", .list [.apply .newRequiredApi
            [.text "pubsub.googleapis.com", .text "Pings are events."] []])] "ping")])])]) []

def shopModule : Except Failure Nat × Session :=
  (loadModule "work" Config.default.entryFile).on shop.inside

def shopStack : Except Failure LoadedStack × Session := (loadStack "work" .default).on shop

theorem loadStack_fits_shop : ∃ module u loaded t,
    shop.Sound ∧ (loadModule "work" Config.default.entryFile).on shop.inside = (.ok module, u) ∧
      shop.KeepsNames u ∧ u.WellTyped module (standing (shop.historySince u)) ∧
      Config.default.includeParams = .bool true ∧
      (loadStack "work" .default).on shop = (.ok loaded, t) ∧
      loaded.handlers.map Prod.fst = ["paid", "api-ping"] ∧
      (standing (shop.historySince u)).map Prod.snd = ["SIZE", "REGION"] ∧
      ∃ stack, t.heap.cell? loaded.stack = some (.stack stack) ∧
        stack.Fits t.heap u.heap Config.default.platform loaded.handlers
          (standing (shop.historySince u)) := by
  have hs : shop.Sound := sound_fresh _ _
  obtain ⟨hloads, hnames, htyped, hdeclared⟩ : shopModule.1.isOk = true ∧
      shop.KeepsNames shopModule.2 ∧
      shopModule.2.WellTyped (shopModule.1.toOption.getD 0)
        (standing (shop.historySince shopModule.2)) ∧
      (standing (shop.historySince shopModule.2)).map Prod.snd = ["SIZE", "REGION"] := by
    decide +kernel
  obtain ⟨hruns, hkeys⟩ : shopStack.1.isOk = true ∧
      (shopStack.1.toOption.getD default).handlers.map Prod.fst = ["paid", "api-ping"] := by
    decide +kernel
  have hload : shopModule = (.ok (shopModule.1.toOption.getD 0), shopModule.2) :=
    eq_of_isOk hloads 0
  have hrun : shopStack = (.ok (shopStack.1.toOption.getD default), shopStack.2) :=
    eq_of_isOk hruns default
  have hfits := loadStack_fits hs hload hnames htyped rfl hrun
  rw [if_pos rfl] at hfits
  exact ⟨_, _, _, _, hs, hload, hnames, htyped, rfl, hrun, hkeys, hdeclared, hfits⟩

end FunctionManifest
