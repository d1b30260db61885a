import FunctionManifest.Proofs.Language.Describing
import FunctionManifest.Proofs.Loading.Evolution
import Mathlib.Data.List.Dedup

/-!
# Contents of a registry

A registry is only ever asked to take a declaration or to be cleared. What it holds after any number
of such requests are the declarations since the last clearing, without those whose name was declared
again. All that can be asked of a registry tells of these, in one order.
-/

namespace FunctionManifest

open Eval Session

/-! ## What was declared since -/

/-- A declaration counts if nothing is cleared after it. -/
def sinceClear : List (Option (Value × Text)) → List (Value × Text)
  | [] => []
  | step :: rest => if none ∈ rest then sinceClear rest else step.toList ++ sinceClear rest

theorem mem_sinceClear {history : List (Option (Value × Text))} (h : none ∉ history)
    {d : Value × Text} : d ∈ sinceClear history ↔ some d ∈ history := by
  induction history with
  | nil => simp [sinceClear]
  | cons step rest ih =>
    obtain ⟨hstep, hrest⟩ := not_or.mp (List.mem_cons.not.mp h)
    rw [sinceClear, if_neg hrest, List.mem_append, ih hrest, List.mem_cons, Option.mem_toList]
    exact or_congr_left eq_comm

/-- Of declarations alone, one stands unless its name is declared again. -/
theorem standing_some_cons (d : Value × Text) (rest : List (Value × Text)) :
    standing ((d :: rest).map some) =
      if d.2 ∈ rest.map Prod.snd then standing (rest.map some)
      else d :: standing (rest.map some) := by
  have hover : (rest.map some).any (overrides d) = true ↔ d.2 ∈ rest.map Prod.snd := by
    simp [overrides]
  rw [List.map_cons, standing]
  simp only [hover]

theorem standing_sinceClear (history : List (Option (Value × Text))) :
    standing ((sinceClear history).map some) = standing history := by
  induction history with
  | nil => rfl
  | cons step rest ih =>
    by_cases hclear : none ∈ rest
    · rw [sinceClear, if_pos hclear, ih]
      cases step with
      | none => rfl
      | some d => rw [standing, if_pos (List.any_eq_true.mpr ⟨none, hclear, rfl⟩)]
    · rw [sinceClear, if_neg hclear]
      cases step with
      | none => exact ih
      | some d =>
        have hover : rest.any (overrides d) = true ↔ d.2 ∈ (sinceClear rest).map Prod.snd := by
          rw [List.any_eq_true, List.mem_map]
          constructor
          · rintro ⟨later, hlater, hname⟩
            cases later with
            | none => exact absurd hlater hclear
            | some later => exact ⟨later, (mem_sinceClear hclear).mpr hlater, eq_of_beq hname⟩
          · rintro ⟨later, hlater, hname⟩
            exact ⟨some later, (mem_sinceClear hclear).mp hlater, beq_iff_eq.mpr hname⟩
        rw [Option.toList_some, List.singleton_append, standing_some_cons, ih, standing]
        simp only [hover]

/-- Of each name the last declaration since a clearing stands, in the order of these. -/
theorem names_standing (history : List (Option (Value × Text))) :
    (standing history).map Prod.snd = ((sinceClear history).map Prod.snd).dedup := by
  rw [← standing_sinceClear]
  induction sinceClear history with
  | nil => rfl
  | cons d rest ih =>
    rw [standing_some_cons]
    split
    · rw [ih, List.map_cons, List.dedup_cons_of_mem ‹_›]
    · rw [List.map_cons, ih, List.map_cons, List.dedup_cons_of_notMem ‹_›]

/-- Under a name stands what was declared last under it since a clearing. -/
theorem find?_standing (history : List (Option (Value × Text))) (name : Text) :
    (standing history).find? (·.2 = name) = (sinceClear history).reverse.find? (·.2 = name) := by
  rw [← standing_sinceClear]
  induction sinceClear history with
  | nil => rfl
  | cons d rest ih =>
    rw [standing_some_cons, List.reverse_cons, List.find?_append, ← ih]
    by_cases hname : d.2 = name
    · split
      · -- The name is declared again, and a later declaration is found.
        rename_i hagain
        obtain ⟨later, hlater, hsame⟩ := List.mem_map.mp hagain
        have hfound : (standing (rest.map some)).find? (·.2 = name) ≠ none := by
          rw [ih, ne_eq, List.find?_eq_none]
          simpa using ⟨later.1, (hsame.trans hname) ▸ hlater⟩
        obtain ⟨found, hfound⟩ := Option.ne_none_iff_exists'.mp hfound
        rw [hfound, Option.some_or]
      · rename_i hlast
        have hnone : (standing (rest.map some)).find? (·.2 = name) = none := by
          rw [ih, List.find?_eq_none]
          intro later hlater hsame
          exact hlast (List.mem_map.mpr ⟨later, List.mem_reverse.mp hlater,
            (of_decide_eq_true hsame).trans hname.symm⟩)
        simp [hname, hnone]
    · split <;> simp [hname]

/-- One more step does to what stands what it does to the entries of a registry. -/
theorem standing_append (history : List (Option (Value × Text))) (step : Option (Value × Text)) :
    standing (history ++ [step]) = replay (standing history) [step] := by
  have hreplay : ∀ history, replay [] history = standing history := replay_eq []
  rw [← hreplay, Session.replay_append, hreplay]

/-! ## Asking a registry -/

variable {s t : Session} {address : Nat} {r r' : Registry Value} {v : Value}
  {declared : List (Value × Text)} {history : List (Option (Value × Text))}

/-- The session once an object was asked for one of its methods. -/
def Session.asked (s : Session) (m : Method) (v : Value) : Session :=
  { s with heap := (s.heap.allocate (.method m (some v))).2 }

theorem Session.HasRegistry.asked (hr : s.HasRegistry address r) (m : Method) (v : Value) :
    (s.asked m v).HasRegistry address r := getElem?_allocate _ hr

/-- A registry has its methods under their names, whatever else there is. -/
theorem Session.HasRegistry.hasMethod (hr : s.HasRegistry address r) {name : String} {m : Method}
    (hfixed : (Cell.registry r).fixed? name = none) (hexport : Heap.exportedName? name = none)
    (hm : Method.named? Method.ofRegistry name = some m) :
    s.heap.HasMethod (.ref address) name m := .of_cell? hr rfl hfixed hexport hm

theorem on_asRegistry (hr : s.HasRegistry address r) (name : Text) :
    (asRegistry (.ref address) name).on s = (.ok (address, r), s) := by
  have hcell : s.heap.cell? (.ref address) = some (.registry r) := hr
  simp [asRegistry, hcell]

/-- A registry takes what is declared if it can compare its names. -/
theorem on_callAttribute_register (hr : s.HasRegistry address r) (v : Value) :
    (callAttribute call (.ref address) "register" [v]).on s =
      next (r.register (s.asked .register (.ref address)).heap.sameName v,
          s.asked .register (.ref address)) fun r' => do
        changeRegistry address r' (some ⟨v, (← heap).declaredName? v⟩)
        return v := by
  have hmethod : s.heap.HasMethod (.ref address) "register" .register :=
    hr.hasMethod rfl (by decide) (by rfl)
  have hbind : Method.register.signature.bind [.ref address, v] [] =
      .ok ⟨[("self", .ref address), ("param", v)], [], []⟩ := rfl
  rw [call, callDepth, on_callAttribute_method hmethod, hbind, next_ok]
  change (register (.ref address) v).on (s.asked .register (.ref address)) = _
  simp [register, on_asRegistry (hr.asked _ _)]

theorem on_changeRegistry (s : Session) (address : Nat) (r : Registry Value)
    (declared : Option Declaration) :
    (changeRegistry address r declared).on s = (.ok (), s.changed address r declared) := rfl

theorem on_callAttribute_clear (hr : s.HasRegistry address r) :
    (callAttribute call (.ref address) "clear" []).on s =
      (.ok .null, (s.asked .clear (.ref address)).changed address .empty none) := by
  have hmethod : s.heap.HasMethod (.ref address) "clear" .clear :=
    hr.hasMethod rfl (by decide) (by rfl)
  have hbind : Method.clear.signature.bind [.ref address] [] = .ok (onlySelf (.ref address)) := rfl
  rw [call, callDepth, on_callAttribute_method hmethod, hbind, next_ok]
  change (runMethod _ .clear _).on (s.asked .clear (.ref address)) = _
  simp [runMethod, on_asRegistry (hr.asked _ _), on_changeRegistry, Registry.clear]

/-! ## What a registry holds -/

/-- What is anywhere else is as it was. -/
def Heap.KeepsApart (heap before : Heap) (address : Nat) : Prop :=
  ∀ v cell, v ≠ .ref address → before.cell? v = some cell → heap.cell? v = some cell

theorem Heap.KeepsApart.refl (heap : Heap) (address : Nat) : heap.KeepsApart heap address :=
  fun _ _ _ h => h

theorem Heap.KeepsApart.trans {third second first : Heap} (h : third.KeepsApart second address)
    (h' : second.KeepsApart first address) : third.KeepsApart first address :=
  fun v cell hv hcell => h v cell hv (h' v cell hv hcell)

/-- Only the registry that is asked changes. -/
theorem keepsApart_changed (s : Session) (m : Method) (v : Value) (address : Nat)
    (r : Registry Value) (declared : Option Declaration) :
    ((s.asked m v).changed address r declared).heap.KeepsApart s.heap address := by
  intro w cell hw hcell
  cases w with
  | ref other =>
    have hne : address ≠ other := fun heq => hw (heq ▸ rfl)
    simp only [changed, asked, Heap.cell?, getElem?_replace, hne, false_and, if_false]
    exact getElem?_allocate _ hcell
  | _ => cases hcell

theorem hasRegistry_changed (hr : s.HasRegistry address r) (r' : Registry Value)
    (declared : Option Declaration) : (s.changed address r' declared).HasRegistry address r' := by
  have hlt := (Array.getElem?_eq_some_iff.mp hr).1
  simp [HasRegistry, changed, getElem?_replace, hlt]

/-- The registry has these declarations, each under its name. -/
structure Session.Holds (s : Session) (address : Nat) (declared : List (Value × Text)) : Prop where
  registry : s.HasRegistry address ⟨declared.map Prod.fst⟩
  names : ∀ d ∈ declared, s.heap.declaredName? d.1 = some d.2

/-- What goes by a name is no registry, so it is kept. -/
theorem Heap.KeepsApart.declaredName? {heap : Heap} (h : heap.KeepsApart s.heap address)
    (hr : s.HasRegistry address r) {name : Text} (hname : s.heap.declaredName? v = some name) :
    heap.declaredName? v = some name := by
  obtain ⟨other, cell, rfl, hcell, hown⟩ := Heap.declaredName?_eq_some hname
  have hne : Value.ref other ≠ .ref address := by
    rintro heq
    cases heq
    rw [hr, Option.some.injEq] at hcell
    rw [← hcell] at hown
    cases hown
  exact Option.bind_eq_some_iff.mpr ⟨cell, h _ _ hne hcell, hown⟩

theorem on_register_of_holds {d : Value × Text} (h : s.Holds address declared)
    (hd : s.heap.declaredName? d.1 = some d.2) :
    ∃ t, (callAttribute call (.ref address) "register" [d.1]).on s = (.ok d.1, t) ∧
      t.Holds address (declared.filter (·.2 ≠ d.2) ++ [d]) ∧
      t.heap.KeepsApart s.heap address := by
  let u := s.asked .register (.ref address)
  have hkept : ∀ {v name}, s.heap.declaredName? v = some name → u.heap.declaredName? v = some name :=
    fun {v name} hv => by
      obtain ⟨cell, hcell, hname⟩ := Option.bind_eq_some_iff.mp hv
      exact Option.bind_eq_some_iff.mpr ⟨cell, Heap.extends_allocate _ _ _ _ hcell, hname⟩
  have hregister := Registry.register_of_declared (fun e he => hkept (h.names e he)) (hkept hd)
  have hapart := keepsApart_changed s .register (.ref address) address
    ⟨(declared.filter (·.2 ≠ d.2) ++ [d]).map Prod.fst⟩ (some ⟨d.1, u.heap.declaredName? d.1⟩)
  refine ⟨_, ?_, ⟨hasRegistry_changed (h.registry.asked _ _) _ _, fun e he => ?_⟩, hapart⟩
  · rw [on_callAttribute_register h.registry]
    simp only [u] at hregister
    rw [hregister]
    simp [on_changeRegistry, u]
  · refine hapart.declaredName? h.registry ?_
    rcases List.mem_append.mp he with he | he
    · exact h.names e (List.mem_filter.mp he).1
    · rw [List.mem_singleton.mp he, hd]

theorem on_clear_of_holds (h : s.Holds address declared) :
    ∃ t, (callAttribute call (.ref address) "clear" []).on s = (.ok .null, t) ∧
      t.Holds address [] ∧ t.heap.KeepsApart s.heap address :=
  ⟨_, on_callAttribute_clear h.registry,
    ⟨hasRegistry_changed (h.registry.asked _ _) _ _, nofun⟩, keepsApart_changed _ _ _ _ _ _⟩

/-- Asks a registry to take a declaration, or to be cleared. -/
def changeBy (registry : Value) : Option (Value × Text) → Eval Value
  | some d => callAttribute call registry "register" [d.1]
  | none => callAttribute call registry "clear" []

/-- One change does what it does to the declarations that are held. -/
theorem on_changeBy {step : Option (Value × Text)} (h : s.Holds address declared)
    (hnames : ∀ d, step = some d → s.heap.declaredName? d.1 = some d.2) :
    ∃ v t, (changeBy (.ref address) step).on s = (.ok v, t) ∧
      t.Holds address (replay declared [step]) ∧ t.heap.KeepsApart s.heap address := by
  cases step with
  | some d => exact ⟨_, on_register_of_holds h (hnames d rfl)⟩
  | none => exact ⟨_, on_clear_of_holds h⟩

/-- A registry and the names of what can be declared in it are left alone. -/
structure Session.Spares (s t : Session) (address : Nat) : Prop where
  registry : ∀ r, s.HasRegistry address r → t.HasRegistry address r
  names : ∀ v name, s.heap.declaredName? v = some name → t.heap.declaredName? v = some name

/-- What a registry was asked for, whatever else happened in between, and what came of it. -/
inductive RegistryRun (s : Session) (address : Nat) :
    List (Option (Value × Text)) → Session → Prop
  | start : RegistryRun s address [] s
  | change {history : List (Option (Value × Text))} {t : Session} (step : Option (Value × Text)) (run : RegistryRun s address history t)
      (hname : ∀ d, step = some d → t.heap.declaredName? d.1 = some d.2) :
      RegistryRun s address (history ++ [step]) ((changeBy (.ref address) step).on t).2
  | besides {history : List (Option (Value × Text))} {t u : Session}
      (run : RegistryRun s address history t) (hspares : t.Spares u address) :
      RegistryRun s address history u

/-- At every moment a registry holds what stands of what it was asked for. -/
theorem RegistryRun.holds (hr : s.HasRegistry address .empty)
    (run : RegistryRun s address history t) : t.Holds address (standing history) := by
  induction run with
  | start => exact ⟨hr, nofun⟩
  | change step run hname ih =>
    obtain ⟨v, u, hstep, hu, -⟩ := on_changeBy ih hname
    rw [hstep, standing_append]
    exact hu
  | besides run hspares ih =>
    exact ⟨hspares.registry _ ih.registry, fun d hd => hspares.names _ _ (ih.names d hd)⟩

/-! ## What a registry tells -/

/-- All that can be asked of a registry tells of these declarations, in this order. -/
structure Session.Tells (s : Session) (registry : Value) (declared : List (Value × Text)) :
    Prop where
  names : ∃ w t, (getAttribute call registry "names").on s = (.ok w, t) ∧
    t.heap.cell? w = some (.list (declared.map fun d => .text d.2))
  items : s.heap.items registry = .ok (declared.map Prod.fst)
  length : (lengthOf registry).on s = (.ok (.int declared.length), s)
  contains : ∀ v, s.heap.contains registry v = .ok (declared.any fun d => v == .text d.2)
  find : ∀ v, ∃ t, (callAttribute call registry "get" [v]).on s =
    (.ok (((declared.find? fun d => v == .text d.2).map Prod.fst).getD .null), t)
  specs : (∀ d ∈ declared, s.heap.IsDescribed d.1) →
    ∃ w t, (callAttribute call registry "specs" []).on s = (.ok w, t) ∧
      t.heap.HasSpecs s.heap w declared

theorem Session.Holds.cell? (h : s.Holds address declared) :
    s.heap.cell? (.ref address) = some (.registry ⟨declared.map Prod.fst⟩) := h.registry

theorem Session.Holds.names_eq (h : s.Holds address declared) :
    (declared.map Prod.fst).mapM s.heap.nameOf = .ok (declared.map fun d => .text d.2) := by
  rw [List.mapM_map]
  exact mapM_of_ok fun d hd => Heap.nameOf_of_declared (h.names d hd)

theorem Session.Holds.hasName_eq (h : s.Holds address declared) (v : Value) :
    ∀ d ∈ declared, s.heap.hasName v d.1 = .ok (v == .text d.2) := by
  intro d hd
  rw [Heap.hasName, Heap.nameOf_of_declared (h.names d hd)]
  exact s.heap.text_same d.2 v

theorem Session.Holds.contains_eq (h : s.Holds address declared) (v : Value) :
    (⟨declared.map Prod.fst⟩ : Registry Value).contains (s.heap.hasName v) =
      .ok (declared.any fun d => v == .text d.2) :=
  anyM_map_of_ok (h.hasName_eq v)

theorem Session.Holds.find?_eq (h : s.Holds address declared) (v : Value) :
    (⟨declared.map Prod.fst⟩ : Registry Value).find? (s.heap.hasName v) =
      .ok ((declared.find? fun d => v == .text d.2).map Prod.fst) :=
  findM?_map_of_ok (h.hasName_eq v)

/-- Asking for a method makes an object, and changes nothing. -/
theorem Session.Holds.asked (h : s.Holds address declared) (m : Method) (v : Value) :
    (s.asked m v).Holds address declared :=
  ⟨h.registry.asked m v, fun d hd => by
    obtain ⟨cell, hcell, hname⟩ := Option.bind_eq_some_iff.mp (h.names d hd)
    exact Option.bind_eq_some_iff.mpr ⟨cell, Heap.extends_allocate _ _ _ _ hcell, hname⟩⟩

/-- The names of a registry are computed. -/
theorem on_getAttribute_names (h : s.Holds address declared) :
    (getAttribute call (.ref address) "names").on s =
      (intern (.list (declared.map fun d => .text d.2))).on s := by
  have hplain : Cell.stored? (.registry ⟨declared.map Prod.fst⟩) "names" = none :=
    Cell.stored?_of_plain rfl "names"
  have hexport : Heap.exportedName? "names" = none := by decide
  have hstored : s.heap.stored? (.ref address) "names" = none := by
    simp [Heap.stored?, h.cell?, hplain, hexport]
  have hmethod : Cell.method? (.registry ⟨declared.map Prod.fst⟩) (.ref address) "names" = none := by
    rfl
  have hready : (ready? (.ref address) "names").on s = (.ok none, s) := by
    simp [ready?, hstored, h.cell?, hmethod]
  have hnames : Registry.names s.heap.nameOf ⟨declared.map Prod.fst⟩ =
      .ok (declared.map fun d => .text d.2) := h.names_eq
  have hcomputed : (computed? call (.registry ⟨declared.map Prod.fst⟩) "names").on s =
      next ((intern (.list (declared.map fun d => .text d.2))).on s) (fun w => pure (some w)) := by
    simp [computed?, hnames]
  simp [getAttribute, attribute?, hready, h.cell?, hcomputed]

theorem on_callAttribute_get (h : s.Holds address declared) (v : Value) :
    (callAttribute call (.ref address) "get" [v]).on s =
      (.ok (((declared.find? fun d => v == .text d.2).map Prod.fst).getD .null),
        s.asked .find (.ref address)) := by
  have hmethod : s.heap.HasMethod (.ref address) "get" .find :=
    h.registry.hasMethod rfl (by decide) (by rfl)
  have hbind : Method.find.signature.bind [.ref address, v] [] =
      .ok ⟨[("self", .ref address), ("name", v)], [], []⟩ := rfl
  rw [call, callDepth, on_callAttribute_method hmethod, hbind, next_ok]
  have hasked := h.asked .find (.ref address)
  let arguments : Arguments := ⟨[("self", .ref address), ("name", v)], [], []⟩
  change (runMethod _ .find arguments).on (s.asked .find (.ref address)) = _
  have hself : arguments.get "self" = .ref address := rfl
  have hname : arguments.get "name" = v := rfl
  simp [runMethod, hself, hname, on_asRegistry hasked.registry, hasked.find?_eq v]

/-- What a registry holds is what it tells of. -/
theorem Session.Holds.tells (h : s.Holds address declared) : s.Tells (.ref address) declared where
  names := by
    rw [on_getAttribute_names h]
    have hkept : ∀ v ∈ declared.map fun d => Value.text d.2, v.IsKept := by
      rw [List.forall_mem_map]
      exact fun d _ => Value.isKept_text d.2
    exact ⟨_, _, rfl, (makes_intern_list hkept s _ _ (.refl s.heap) rfl).2⟩
  items := by simp [Heap.items, Heap.items?, Heap.content, h.cell?]
  length := by simp [lengthOf, Heap.size?, Heap.items?, Heap.content, h.cell?]
  contains v := by
    simp only [Heap.contains, Heap.content, h.cell?]
    exact h.contains_eq v
  find v := ⟨_, on_callAttribute_get h v⟩
  specs hdescribed := by
    obtain ⟨w, t, hrun⟩ := returns_specs h.cell? h.names hdescribed s (.refl _)
    exact ⟨w, t, hrun, (makes_specs h.cell? h.names
      (fun d hd => (hdescribed d hd).isPrompted) s w t (.refl _) hrun).2⟩

/-! ## Whole runs -/

/-- No change of a registry fails, and at every moment its names are those declared since it was
cleared, each one where it was declared last. Under a name it has the very object that was declared
last, and all that it can be asked for tells of these. -/
theorem RegistryRun.tells_standing (hr : s.HasRegistry address .empty)
    (run : RegistryRun s address history t) :
    (∀ step, (∀ d, step = some d → t.heap.declaredName? d.1 = some d.2) →
      ((changeBy (.ref address) step).on t).1.isOk) ∧
    ((standing history).map Prod.snd).Nodup ∧
    (standing history).map Prod.snd = ((sinceClear history).map Prod.snd).dedup ∧
    (∀ name, ∃ u, (callAttribute call (.ref address) "get" [.text name]).on t =
      (.ok ((((sinceClear history).reverse.find? (·.2 = name)).map Prod.fst).getD .null), u)) ∧
    t.Tells (.ref address) (standing history) := by
  have hholds := run.holds hr
  refine ⟨fun step hname => ?_, nodup_standing history, names_standing history, fun name => ?_,
    hholds.tells⟩
  · obtain ⟨v, u, hstep, -⟩ := on_changeBy hholds hname
    rw [hstep]
    rfl
  · obtain ⟨u, hget⟩ := hholds.tells.find (.text name)
    refine ⟨u, ?_⟩
    have hsame : (fun d : Value × Text => Value.text name == .text d.2) =
        fun d => decide (d.2 = name) := by
      funext d
      by_cases h : d.2 = name
      · simp [h]
      · simp [h, Ne.symm h]
    rw [hget, hsame, find?_standing]

/-- A registry, a secret, and two params of one name. -/
def ofOneName : Session :=
  { Session.fresh default default with heap := { Heap.initial with cells :=
      #[.tuple [], .registry .empty, .secret ⟨false, .text "KEY"⟩,
        .param ⟨.string, .text "REGION", .null, .null, .null, .null, .null⟩,
        .param ⟨.int, .text "REGION", .int 3, .null, .null, .null, .null⟩] } }

/-- Declared again, a name is last, and under it is the other param. -/
theorem RegistryRun.tells_standing_ofOneName : ∃ t,
    RegistryRun ofOneName 1 [some (.ref 2, "KEY"), none, some (.ref 3, "REGION"),
      some (.ref 2, "KEY"), some (.ref 4, "REGION")] t ∧
    t.Tells (.ref 1) [(.ref 2, "KEY"), (.ref 4, "REGION")] ∧
    ∃ u, (callAttribute call (.ref 1) "get" [.text "REGION"]).on t = (.ok (.ref 4), u) := by
  have run : RegistryRun ofOneName 1 [some (.ref 2, "KEY"), none, some (.ref 3, "REGION"),
      some (.ref 2, "KEY"), some (.ref 4, "REGION")] _ :=
    ((((RegistryRun.start.change (some (.ref 2, "KEY")) (by rintro _ ⟨⟩; decide +kernel)).change
      none nofun).change (some (.ref 3, "REGION")) (by rintro _ ⟨⟩; decide +kernel)).change
      (some (.ref 2, "KEY")) (by rintro _ ⟨⟩; decide +kernel)).change
      (some (.ref 4, "REGION")) (by rintro _ ⟨⟩; decide +kernel)
  have hempty : ofOneName.HasRegistry 1 .empty := rfl
  obtain ⟨-, -, -, hget, htells⟩ := run.tells_standing hempty
  exact ⟨_, run, htells, hget "REGION"⟩

end FunctionManifest
