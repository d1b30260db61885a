import FunctionManifest.Proofs.Discovery.Collecting
import FunctionManifest.Proofs.Language.Spec
import FunctionManifest.Proofs.Manifest.RequiredApi

/-!
# Stacks of what was collected

The endpoints of a stack are those that were collected, each with a platform, and its required APIs
are those of all functions, merged. A stack adds objects and changes none.
-/

namespace FunctionManifest

open Eval

variable {heap later : Heap} {v platform : Value} {e : Endpoint}

/-! ## Endpoints -/

/-- The endpoint with its own platform, or else with this one. -/
def Endpoint.filled (e : Endpoint) (platform : Value) : Endpoint :=
  e.withPlatform (e.platform.given?.getD platform)

theorem Endpoint.filled_of_null (h : e.platform = .null) :
    e.filled platform = e.withPlatform platform := by
  simp [filled, h, Value.given?]

theorem Endpoint.filled_of_given (h : e.platform ≠ .null) : e.filled platform = e := by
  have hgiven : e.platform.given? = some e.platform := by
    unfold Value.given?
    split
    · exact absurd ‹_› h
    · rfl
  rw [filled, hgiven]
  rfl

theorem makes_withPlatform (h : heap.cell? v = some (.endpoint e)) :
    Makes heap (callAttribute call v "with_platform" [platform]) fun after w =>
      after.cell? w = some (.endpoint (e.withPlatform platform)) := by
  have hmethod : heap.HasMethod v "with_platform" .withPlatform :=
    .of_cell? h rfl rfl (by decide) (by rfl)
  let arguments : Arguments := ⟨[("self", v), ("platform", platform)], [], []⟩
  have hbind : Method.withPlatform.signature.bind [v, platform] [] = .ok arguments := rfl
  have hself : arguments.get "self" = v := rfl
  have hplatform : arguments.get "platform" = platform := rfl
  have hendpoint : Makes heap (asEndpoint v "trigger_kind") fun _ found => found = e := by
    refine (makes_cell? h).bind fun _ found _ hfound => ?_
    rw [hfound]
    exact makes_pure fun _ _ => rfl
  refine makes_callAttribute hmethod hbind ?_
  simp only [runMethod, hself, hplatform]
  refine hendpoint.bind fun _ found _ hfound => ?_
  rw [hfound]
  exact makes_allocate _

theorem makes_fillPlatform (h : heap.cell? v = some (.endpoint e)) :
    Makes heap (fillPlatform platform v) fun after w =>
      after.cell? w = some (.endpoint (e.filled platform)) := by
  have hpart : (Cell.endpoint e).fixed? "platform" = some e.platform := rfl
  refine (makes_getAttribute h rfl hpart).bind fun mid found hmid hfound => ?_
  rw [hfound]
  split
  · rw [Endpoint.filled_of_null ‹_›]
    exact makes_withPlatform (hmid _ _ h)
  · rename_i hgiven
    rw [Endpoint.filled_of_given hgiven]
    exact makes_pure fun after hafter => hafter _ _ (hmid _ _ h)

/-- The endpoints of before, each with a platform. -/
def Heap.Fills (heap before : Heap) (platform : Value) (endpoints filled : Fields) : Prop :=
  List.Forall₂ (fun entry new => new.1 = entry.1 ∧ ∀ e, before.cell? entry.2 = some (.endpoint e) →
    heap.cell? new.2 = some (.endpoint (e.filled platform))) endpoints filled

theorem Heap.Fills.mono {before : Heap} {endpoints filled : Fields}
    (h : heap.Fills before platform endpoints filled) (hlater : later.Extends heap) :
    later.Fills before platform endpoints filled :=
  h.imp fun _ _ hnew => ⟨hnew.1, fun e he => hlater _ _ (hnew.2 e he)⟩

theorem makes_fills {endpoints : Fields}
    (h : ∀ entry ∈ endpoints, ∃ e, heap.cell? entry.2 = some (.endpoint e)) :
    Makes heap (endpoints.mapM fun (key, endpoint) => do
      return (key, ← fillPlatform platform endpoint)) fun after filled =>
        after.Fills heap platform endpoints filled := by
  have hone : ∀ entry ∈ endpoints, Makes heap (do return (entry.1, ← fillPlatform platform entry.2))
      fun after new => new.1 = entry.1 ∧ ∀ e, heap.cell? entry.2 = some (.endpoint e) →
        after.cell? new.2 = some (.endpoint (e.filled platform)) := by
    intro entry hentry
    obtain ⟨e, he⟩ := h entry hentry
    refine (makes_fillPlatform he).bind fun _ new _ hnew => makes_pure fun after hafter => ?_
    refine ⟨rfl, fun e' he' => ?_⟩
    rw [he, Option.some.injEq, Cell.endpoint.injEq] at he'
    exact he' ▸ hafter _ _ hnew
  exact Makes.mapM hone fun entry _ after new hlater hnew =>
    ⟨hnew.1, fun e he => hlater _ _ (hnew.2 e he)⟩

/-- A mapping of the endpoints of before, each with a platform. -/
def Heap.HasFilled (heap before : Heap) (v platform : Value) (endpoints : Fields) : Prop :=
  ∃ filled, heap.cell? v = some (.mapping (filled.map fun entry => (.text entry.1, entry.2))) ∧
    heap.Fills before platform endpoints filled

theorem Heap.HasFilled.mono {before : Heap} {endpoints : Fields}
    (h : heap.HasFilled before v platform endpoints) (hlater : later.Extends heap) :
    later.HasFilled before v platform endpoints :=
  h.imp fun _ hfilled => ⟨hlater _ _ hfilled.1, hfilled.2.mono hlater⟩

theorem makes_intern_filled {before : Heap} {endpoints filled : Fields}
    (h : ∀ entry ∈ endpoints, ∃ e, before.cell? entry.2 = some (.endpoint e))
    (hfilled : heap.Fills before platform endpoints filled) :
    Makes heap (intern (.named filled)) fun after v =>
      after.HasFilled before v platform endpoints := by
  have hkept : ∀ entry ∈ filled.map fun entry => (Value.text entry.1, entry.2),
      entry.1.IsKept ∧ entry.2.IsKept := by
    intro entry hentry
    obtain ⟨new, hnew, rfl⟩ := List.mem_map.mp hentry
    obtain ⟨old, hold, -, hcell⟩ := exists_left_of_forall₂ hfilled hnew
    obtain ⟨e, he⟩ := h old hold
    exact ⟨Value.isKept_text _, Value.isKept_of_cell? (hcell e he)⟩
  exact (makes_intern_mapping hkept).imp fun after v hafter hv => ⟨filled, hv, hfilled.mono hafter⟩

/-! ## Required APIs -/

/-- A list of APIs that are all different, with every reason of these requirements. -/
def Heap.ListsApis (heap : Heap) (listed : Value) (requirements : List Value) : Prop :=
  ∃ (objects : List Value) (apis : List (Text × Text)), heap.cell? listed = some (.list objects) ∧
    List.Forall₂ (fun v api => heap.cell? v = some (.api (.plain api))) objects apis ∧
    (apis.map Prod.fst).Nodup ∧
    ∀ v ∈ requirements, ∃ name reason reasons, heap.Requires v name reason ∧
      (name, reasons) ∈ apis ∧ reason <:+: reasons

theorem Heap.ListsApis.mono {listed : Value} {requirements : List Value}
    (h : heap.ListsApis listed requirements) (hlater : later.Extends heap) :
    later.ListsApis listed requirements := by
  obtain ⟨objects, apis, hlisted, hobjects, hnodup, hcovers⟩ := h
  refine ⟨objects, apis, hlater _ _ hlisted, hobjects.imp fun v api => hlater _ _, hnodup,
    fun v hv => ?_⟩
  obtain ⟨name, reason, reasons, hrequires, hreasons⟩ := hcovers v hv
  exact ⟨name, reason, reasons, hrequires.mono hlater, hreasons⟩

/-- A list of objects for these APIs, each with its reason. -/
def Heap.HoldsApis (heap : Heap) (listed : Value) (apis : List (Text × Text)) : Prop :=
  ∃ objects, heap.cell? listed = some (.list objects) ∧
    List.Forall₂ (fun v api => heap.cell? v = some (.api (.plain api))) objects apis

theorem makes_listApis (apis : List (Text × Text)) :
    Makes heap ((apis.map RequiredApi.plain).mapM allocateApi >>= fun objects =>
      intern (.list objects)) fun after listed => after.HoldsApis listed apis := by
  have hone : ∀ api ∈ apis, Makes heap (allocateApi (.plain api)) fun after v =>
      after.cell? v = some (.api (.plain api)) := fun api _ => makes_allocate _
  rw [List.mapM_map]
  refine (Makes.mapM hone fun api _ _ _ hlater => hlater _ _).bind fun mid objects _ hobjects => ?_
  have hkept : ∀ v ∈ objects, v.IsKept := by
    intro v hv
    obtain ⟨api, -, hcell⟩ := exists_left_of_forall₂ hobjects hv
    exact Value.isKept_of_cell? hcell
  refine (makes_intern_list hkept).imp fun after listed hafter hlisted => ?_
  exact ⟨objects, hlisted, hobjects.flip.imp fun v api => hafter _ _⟩

theorem makes_newApis {items : List Value}
    (htyped : ∀ v ∈ items, ∃ name reason, heap.Requires v name reason) :
    Makes heap (newApis items) fun after listed => after.ListsApis listed items := by
  refine (makes_reading _).bind fun mid merged hmid hmerged => ?_
  have htyped : ∀ v ∈ items, ∃ name reason, mid.Requires v name reason := fun v hv =>
    (htyped v hv).imp fun _ => Exists.imp fun _ => Heap.Requires.mono hmid
  obtain ⟨apis, rfl, hnodup, hcovers⟩ := Heap.mergedApis_eq_ok htyped hmerged
  apply (makes_listApis apis).imp
  rintro after listed hafter ⟨objects, hlisted, hobjects⟩
  refine ⟨objects, apis, hlisted, hobjects, hnodup, fun v hv => ?_⟩
  obtain ⟨name, reason, reasons, hrequires, hreasons⟩ := hcovers v hv
  exact ⟨name, reason, reasons, hrequires.mono hafter, hreasons⟩

/-! ## Stacks -/

theorem makes_stackOf {collection : Collection} {config : Config} {params : Value}
    (hendpoints : ∀ entry ∈ collection.endpoints, ∃ e, heap.cell? entry.2 = some (.endpoint e))
    (hapis : ∀ v ∈ collection.requiredApis, ∃ name reason, heap.Requires v name reason) :
    Makes heap (stackOf collection config params) fun after v =>
      ∃ stack, after.cell? v = some (.stack stack) ∧ stack.params = params ∧
        after.HasFilled heap stack.endpoints config.platform collection.endpoints ∧
        after.ListsApis stack.requiredApis collection.requiredApis := by
  refine (makes_fills hendpoints).bind fun h1 filled hh1 hfilled => ?_
  refine (makes_intern_filled hendpoints hfilled).bind fun h2 endpoints hh2 hmapping => ?_
  have hapis : ∀ v ∈ collection.requiredApis, ∃ name reason, h2.Requires v name reason :=
    fun v hv => (hapis v hv).imp fun _ => Exists.imp fun _ => .mono (hh2.trans hh1)
  refine (makes_newApis hapis).bind fun h3 listed hh3 hlisted => ?_
  refine (makes_allocate _).imp fun after v hafter hv => ⟨_, hv, rfl, ?_, hlisted.mono hafter⟩
  exact hmapping.mono (hafter.trans hh3)

end FunctionManifest
