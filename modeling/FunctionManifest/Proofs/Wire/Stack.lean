import FunctionManifest.Proofs.Wire.Endpoint

/-!
# Stacks on the wire

In the manifest of a stack everything that its endpoints were given stands in a plain form, and so
do its params.
-/

namespace FunctionManifest

open Eval

section

variable {call : Caller} {s u u' t : Session} {v w : Value} {st : Stack} {entries : Entries}

/-- All that the stack leads to is there, and what it calls endpoints are endpoints. -/
structure Heap.KnowsStack (heap : Heap) (st : Stack) (entries : Entries) : Prop where
  endpoints : heap.content st.endpoints = .mapping entries
  keys : ∀ entry ∈ entries, entry.1.IsKept
  each : ∀ entry ∈ entries, ∃ e, heap.cell? entry.2 = some (.endpoint e) ∧ heap.KnowsEndpoint e
  params : heap.Knows st.params

/-- The value stands there in its wire form, as it was in a session that was reached. -/
def Session.Sends (s : Session) (call : Caller) (t : Session) (v w : Value) : Prop :=
  ∃ u tree, s.Reaches u ∧ u.Converts call v tree ∧ t.IsNormal call w tree

/-- An endpoint stands there as its header with its labels, its trigger and the options that it had
at some time behind. -/
def Session.SendsEndpoint (s : Session) (call : Caller) (t : Session) (v w : Value) : Prop :=
  ∃ e u options fields, s.heap.cell? v = some (.endpoint e) ∧ s.Reaches u ∧
    u.heap.content e.options = .mapping options ∧ t.heap.cell? w = some (.mapping fields) ∧
    s.Describes e.header (e.settings options) (s.Sends call t) fields

/-- The manifest of a stack: under their keys the endpoints, and the params if there are some. -/
def Session.SendsStack (s : Session) (call : Caller) (t : Session) (st : Stack) (entries : Entries)
    (w : Value) : Prop :=
  ∃ fields endpoints wires, t.heap.cell? w = some (.mapping fields) ∧
    (.text "endpoints", endpoints) ∈ fields ∧ t.heap.cell? endpoints = some (.mapping wires) ∧
    List.Forall₂ (AtKey (s.SendsEndpoint call t)) entries wires ∧
    ∀ params, (.text "params", params) ∈ fields → s.Sends call t st.params params

/-! ## Keeping -/

theorem sends_of_interns {size : Nat} {tree : Value} (h : s.HasTree call u v tree)
    (hw : u.heap.Interns t.heap size tree w) : s.Sends call t v w := by
  obtain ⟨⟨mid, hmid, hconverts⟩, htree⟩ := h
  exact ⟨mid, tree, hmid, hconverts, isNormal_of_interns htree hw⟩

theorem describes_of_interns {size : Nat} {header settings fields fields' : Entries}
    (h : s.Describes header settings (s.HasTree call u) fields)
    (hheader : ∀ entry ∈ header, entry.2.IsKept)
    (hkept : List.Forall₂ (AtKey (u.heap.Interns t.heap size)) fields fields') :
    s.Describes header settings (s.Sends call t) fields' where
  keys entry hentry := by
    obtain ⟨old, hold, ⟨-⟩⟩ := exists_left_of_forall₂ hkept hentry
    have hkey := h.keys _ hold
    exact hkey
  values entry hentry := by
    obtain ⟨old, hold, ⟨hw⟩⟩ := exists_left_of_forall₂ hkept hentry
    rcases h.values _ hold with hmem | ⟨setting, hsetting, htree⟩
    · rw [hw.eq_of_isKept (hheader _ hmem)]
      exact .inl hmem
    · exact .inr ⟨setting, hsetting, sends_of_interns htree hw⟩
  covers setting hsetting := by
    obtain ⟨old, hold, hkey, later, hlater, htree⟩ := h.covers setting hsetting
    obtain ⟨_, hnew, ⟨hw⟩⟩ := exists_right_of_forall₂ hkept hold
    exact ⟨_, hnew, hkey, later, hlater, sends_of_interns htree hw⟩

theorem sendsEndpoint_of_interns {size : Nat} {tree : Value}
    (hknows : ∃ e, s.heap.cell? v = some (.endpoint e) ∧ s.heap.KnowsEndpoint e)
    (h : s.HasEndpointTree call u v tree) (hw : u.heap.Interns t.heap size tree w) :
    s.SendsEndpoint call t v w := by
  obtain ⟨e, mid, options, fields, hcell, hmid, hoptions, rfl, hdescribes⟩ := h
  obtain ⟨e', hcell', hknows⟩ := hknows
  rw [hcell, Option.some.injEq, Cell.endpoint.injEq] at hcell'
  subst hcell'
  have hoptionKeys := ((hknows.parts e.options (by simp)).mono hmid.keeps).isSound.keys options
    hoptions
  have hkeys : ∀ entry ∈ fields, entry.1.IsKept := by
    intro entry hentry
    obtain ⟨known, hmem, hkey⟩ := List.mem_map.mp (hdescribes.keys entry hentry)
    rw [← hkey]
    simp only [Endpoint.header, Endpoint.settings, List.mem_append, List.mem_cons,
      List.not_mem_nil, or_false] at hmem
    rcases hmem with (rfl | rfl) | rfl | rfl | hmem
    · exact Value.isKept_text _
    · exact Value.isKept_text _
    · exact Value.isKept_text _
    · exact Value.isKept_text _
    · exact hoptionKeys known hmem
  obtain ⟨_, fields', rfl, -, hfields, hkept⟩ := hw.mapping hkeys
  exact ⟨e, mid, options, fields', hcell, hmid, hoptions, hfields,
    describes_of_interns hdescribes hknows.header hkept⟩

/-! ## Endpoints -/

theorem hasEndpointTrees_of_mapM (hcall : AsksQuietly Session.Reaches call) {wires : Entries}
    (hknows : ∀ entry ∈ entries, ∃ e, s.heap.cell? entry.2 = some (.endpoint e) ∧
      s.heap.KnowsEndpoint e) (hu : s.Reaches u)
    (hrun : (entries.mapM fun entry : Value × Value => do
      return (entry.1, ← endpointWire call entry.2)).on u = (.ok wires, u')) :
    List.Forall₂ (AtKey (s.HasEndpointTree call u')) entries wires := by
  induction entries generalizing u wires with
  | nil =>
    cases hrun
    exact .nil
  | cons entry rest ih =>
    rw [List.mapM_cons, on_bind, next_eq_ok_iff] at hrun
    obtain ⟨new, mid, hfirst, hrun⟩ := hrun
    rw [on_bind, next_eq_ok_iff] at hfirst hrun
    obtain ⟨wire, _, hwire, hfirst⟩ := hfirst
    obtain ⟨others, last, hrest, hrun⟩ := hrun
    cases hfirst
    cases hrun
    -- The tree of the first endpoint is still one when the last is described.
    have hmid : s.Reaches mid := hu.after (within_endpointWire hcall _) hwire
    have hstep : mid.Reaches u' := (refl_of Session.Reaches mid).after (by grind) hrest
    obtain ⟨e, hcell, hendpoint⟩ := hknows entry List.mem_cons_self
    have htree := (hasEndpointTree_of_wire hcall hcell hendpoint hu hwire).mono hstep
    exact .cons (.intro htree) (ih (fun entry hentry => hknows entry (List.mem_cons_of_mem _ hentry))
      hmid hrest)

/-! ## Stacks -/

/-- What is converted and kept at once stays there. -/
theorem sends_of_wireOf (hcall : AsksQuietly Session.Reaches call) (hknows : s.heap.Knows v)
    (hu : s.Reaches u) (hrun : (wireOf call v).on u = (.ok w, u')) :
    w.IsKept ∧ ∀ t : Session, t.heap.Extends u'.heap → s.Sends call t v w := by
  obtain ⟨tree, mid, hwire, rfl, rfl⟩ := wireOf_eq_ok_iff.mp hrun
  have hs : u.Reaches u := refl_of Session.Reaches u
  obtain ⟨hconverts, htree⟩ := converts_of_wire hcall (hknows.mono hu.keeps) hs hwire
  have hmid : u.Reaches mid := hs.after (within_setting_wire (within_asking hcall) _) hwire
  have hkept := Heap.interns_intern mid.heap tree
  refine ⟨Heap.isKept_intern mid.heap tree, fun t ht => ⟨u, tree, hu, hconverts, ?_⟩⟩
  exact isNormal_of_interns (htree.mono hmid.keeps) (hkept.mono ht)

theorem sendsStack_of_interns {endpoints : Entries} {apis : List Value} {version : Value}
    {params : Option Value} {size : Nat} (hknows : s.heap.KnowsStack st entries)
    (hwires : List.Forall₂ (AtKey (s.HasEndpointTree call u)) entries endpoints)
    (hparams : ∀ p ∈ params, p.IsKept ∧ ∀ t : Session, t.heap.Extends u.heap →
      s.Sends call t st.params p)
    (hw : u.heap.Interns t.heap size (Stack.manifest endpoints apis version params) w) :
    s.SendsStack call t st entries w := by
  have hkeys : ∀ entry ∈ endpoints, entry.1.IsKept := by
    intro entry hentry
    obtain ⟨old, hold, ⟨-⟩⟩ := exists_left_of_forall₂ hwires hentry
    have hkey := hknows.keys _ hold
    exact hkey
  obtain ⟨_, fields, rfl, -, hfields, hkept⟩ := hw.mapping fun entry hentry => by
    obtain ⟨named, -, rfl⟩ := List.mem_map.mp hentry
    exact Value.isKept_text _
  obtain ⟨_, hmem, ⟨hendpoints⟩⟩ := exists_right_of_forall₂ hkept List.mem_cons_self
  obtain ⟨_, wires, rfl, -, hwritten, hendpoints⟩ := hendpoints.mapping hkeys
  refine ⟨fields, _, wires, hfields, hmem, hwritten, ?_, fun p hp => ?_⟩
  · refine forall₂_comp_of hwires hendpoints fun entry hentry wire kept h h' => ?_
    obtain ⟨htree⟩ := h
    obtain ⟨hkept⟩ := h'
    exact .intro (sendsEndpoint_of_interns (hknows.each _ hentry) htree hkept)
  · obtain ⟨⟨_, q⟩, hold, ⟨hp⟩⟩ := exists_left_of_forall₂ hkept hp
    have hothers : ∀ name ∈ ["endpoints", "requiredAPIs", "specVersion"],
        Text.ofString name ≠ "params" ∧ Text.ofString "params" ≠ name := by decide
    have hq : q ∈ params := by
      simp only [List.forall_mem_cons] at hothers
      cases params <;> simp [field, fieldIf, hothers, eq_comm] at hold ⊢; exact hold
    obtain ⟨hpKept, hsends⟩ := hparams q hq
    rw [hp.eq_of_isKept hpKept]
    exact hsends t hp.extends_of

theorem sendsStack_of_stackWire (hcall : AsksQuietly Session.Reaches call)
    (hcell : s.heap.cell? v = some (.stack st)) (hknows : s.heap.KnowsStack st entries)
    (hrun : (stackWire call v).on s = (.ok w, t)) : s.SendsStack call t st entries w := by
  have hpart : ∀ {mid : Session} {name : String} {part : Value}, s.Reaches mid →
      (Cell.stack st).fixed? name = some part →
      (getAttribute call v (Text.ofString name)).on mid = (.ok part, mid) := fun hmid hfixed =>
    hmid.on_part hcell rfl (fun _ h => by cases h; rfl) hfixed
  have hs : s.Reaches s := refl_of Session.Reaches s
  rw [stackWire, on_bind, hpart hs rfl, next_ok, on_bind,
    on_fromEntries_of_mapping hknows.endpoints, next_ok, on_bind, next_eq_ok_iff] at hrun
  obtain ⟨endpoints, mid, hendpoints, hrun⟩ := hrun
  have hmid : s.Reaches mid := hs.after (by grind) hendpoints
  have hwires := hasEndpointTrees_of_mapM hcall hknows.each hs hendpoints
  rw [on_bind, hpart hmid rfl, next_ok, on_bind, next_eq_ok_iff] at hrun
  obtain ⟨items, _, hitems, hrun⟩ := hrun
  rw [on_reading, Prod.mk.injEq] at hitems
  obtain ⟨-, rfl⟩ := hitems
  rw [on_bind, next_eq_ok_iff] at hrun
  obtain ⟨apis, asked, hapis, hrun⟩ := hrun
  have hasked : mid.Reaches asked := (refl_of Session.Reaches mid).after (by grind) hapis
  have hsAsked := trans_of Session.Reaches hmid hasked
  rw [on_bind, hpart hsAsked rfl, next_ok, on_bind, hpart hsAsked rfl, next_ok, on_bind, on_heap,
    next_ok] at hrun
  dsimp only at hrun
  -- Params that are there are converted last, and nothing is asked after that.
  split at hrun
  · rw [on_bind, on_map, next_eq_ok_iff] at hrun
    obtain ⟨params, last, hparams, hrun⟩ := hrun
    obtain ⟨p, _, hwire, hparams⟩ := next_eq_ok_iff.mp hparams
    cases hparams
    rw [on_intern, Prod.mk.injEq, Except.ok.injEq] at hrun
    obtain ⟨rfl, rfl⟩ := hrun
    have hlast := hasked.after (within_wireOf hcall _) hwire
    refine sendsStack_of_interns hknows
      (hwires.imp fun _ _ h => h.imp fun _ h => h.mono hlast) ?_ (Heap.interns_intern _ _)
    rintro _ ⟨⟩
    exact sends_of_wireOf hcall hknows.params hsAsked hwire
  · rw [on_bind, on_pure, next_ok, on_intern, Prod.mk.injEq, Except.ok.injEq] at hrun
    obtain ⟨rfl, rfl⟩ := hrun
    exact sendsStack_of_interns hknows
      (hwires.imp fun _ _ h => h.imp fun _ h => h.mono hasked) (fun _ h => by cases h)
      (Heap.interns_intern _ _)

end

/-- Conversion gives a plain value of the same shape, which is its own wire form. In the manifest of
a stack everything that an endpoint was given stands in that form, and so do the params. -/
theorem wire_isNormal (fuel : Nat) :
    (∀ s v w t, s.heap.Knows v → (wireOf (callValue fuel) v).on s = (.ok w, t) →
      ∃ tree, s.Converts (callValue fuel) v tree ∧ t.IsNormal (callValue fuel) w tree) ∧
    ∀ s v w t st entries, s.heap.cell? v = some (.stack st) → s.heap.KnowsStack st entries →
      (stackWire (callValue fuel) v).on s = (.ok w, t) →
      s.SendsStack (callValue fuel) t st entries w := by
  have hcall : AsksQuietly Session.Reaches (callValue fuel) := asksQuietly_callValue fuel
  constructor
  · intro s v w t hknows hrun
    exact isNormal_of_wireOf hcall hknows hrun
  · intro s v w t st entries hcell hknows hrun
    exact sendsStack_of_stackWire hcall hcell hknows hrun

def oneStack : Stack := ⟨.ref 10, .ref 11, .text "v1alpha1", .ref 13⟩

/-- A stack of one endpoint. Its labels hold a param in a tuple and an object that a tool does not
know, and an option is reset. -/
def oneEndpoint : Session :=
  let e : Endpoint :=
    { kind := .https, trigger := .ref 7, entryPoint := .text "api", platform := .text "gcfv2"
      labels := .ref 6, options := .ref 8 }
  { Session.fresh default default with heap := { Heap.initial with cells :=
      #[.tuple [], .registry .empty,
        .param ⟨.string, .text "REGION", .null, .null, .null, .null, .null⟩,
        .tuple [.ref 2, .int 3], .unknown "Celsius" [("to_cel", .text "warm")], .reset,
        .mapping [(.text "place", .ref 3), (.text "unit", .ref 4)], .mapping [],
        .mapping [(.text "region", .ref 2), (.text "memory", .ref 5)], .endpoint e,
        .mapping [(.text "api", .ref 9)], .list [], .stack oneStack, .list [.ref 8]] } }

theorem wire_isNormal_oneEndpoint :
    (∃ tree w t, (wireOf call (.ref 6)).on oneEndpoint = (.ok w, t) ∧
      oneEndpoint.Converts call (.ref 6) tree ∧ t.IsNormal call w tree) ∧
    ∃ w t, (stackWire call (.ref 12)).on oneEndpoint = (.ok w, t) ∧
      oneEndpoint.SendsStack call t oneStack [(.text "api", .ref 9)] w := by
  have hwhole : oneEndpoint.heap.isWhole = true := by decide +kernel
  have hknows : ∀ address, address < 14 → oneEndpoint.heap.Knows (.ref address) :=
    fun address hlt => Heap.knows_of_isWhole hwhole (decide_eq_true hlt)
  have hvalue := Eval.eq_of_isOk
    (show ((wireOf call (.ref 6)).on oneEndpoint).1.isOk = true by decide +kernel) default
  have hstack := Eval.eq_of_isOk
    (show ((stackWire call (.ref 12)).on oneEndpoint).1.isOk = true by decide +kernel) default
  obtain ⟨tree, hconverts, hnormal⟩ :=
    (wire_isNormal callDepth).1 _ _ _ _ (hknows 6 (by decide)) hvalue
  refine ⟨⟨tree, _, _, hvalue, hconverts, hnormal⟩, _, _, hstack, ?_⟩
  refine (wire_isNormal callDepth).2 _ _ _ _ _ _ rfl ⟨rfl, ?_, ?_, hknows 13 (by decide)⟩ hstack
  · simp [Value.isKept_text]
  · rintro _ (_ | ⟨_, ⟨⟩⟩)
    refine ⟨_, rfl, ?_, ?_, _, rfl⟩
    · rintro _ (_ | ⟨_, _ | ⟨_, ⟨⟩⟩⟩) <;> exact Value.isKept_text _
    · rintro _ (_ | ⟨_, _ | ⟨_, _ | ⟨_, ⟨⟩⟩⟩⟩) <;> exact hknows _ (by decide)

end FunctionManifest
