import FunctionManifest.Proofs.Language.Binding
import FunctionManifest.Proofs.Registry.Contents
import Mathlib.Data.Set.Insert
import Mathlib.Logic.Function.Basic

/-!
# Scopes of registries

A program may open scopes for registries, declare, clear, fail and go on after a failure. Whatever
it does, each declaration goes to the registry of the scope that the program shows around it, unless
it names a registry, and nothing else becomes of any registry.
-/

namespace FunctionManifest

open Eval Session

/-! ## Programs -/

/-- The builtin makes a param or a secret and declares it. -/
def Builtin.declares : Builtin → Bool
  | .declareParam _ | .declareSecret _ => true
  | _ => false

/-- What a program does with registries. A scope gives its registry to what is inside it, and asking
for the current registry gives it to what comes next. -/
inductive Scoped where
  | skip
  | andThen (first second : Scoped)
  | declare (b : Builtin) (positional : List Value) (keywords : Fields)
  | clear
  | current (next : Value → Scoped)
  | raise (failure : Failure)
  | within (given : Option Value) (body : Value → Scoped)
  | rescue (body handler : Scoped)

/-- What a declaration names for a registry. -/
def namedRegistry (keywords : Fields) : Value :=
  (Assoc.get? keywords (Text.ofString "registry")).getD .null

namespace Scoped

def run : Scoped → Eval Unit
  | .skip => pure ()
  | .andThen first second => do
    first.run
    second.run
  | .declare b positional keywords => do
    let _ ← callBuiltin call b positional keywords
  | .clear => do
    let _ ← callBuiltin call .clearParams [] []
  | .current next => do
    let registry ← callBuiltin call .currentRegistry [] []
    (next registry).run
  | .raise failure => throw failure
  | .within given body => do
    let registry ← enterRegistry given
    ensuring (body registry).run leaveRegistry
  | .rescue body handler => tryCatch body.run fun _ => handler.run

/-- Only known registries are named, or those that the program was given since. -/
def Names (known : Set Value) : Scoped → Prop
  | .skip | .clear | .raise _ => True
  | .andThen first second => first.Names known ∧ second.Names known
  | .declare b _ keywords =>
    b.declares ∧ namedRegistry keywords ∈ insert .null known
  | .current next => ∀ v, (next v).Names (insert v known)
  | .within given body => (∀ v ∈ given, v ∈ known) ∧ ∀ v, (body v).Names (insert v known)
  | .rescue body handler => body.Names known ∧ handler.Names known

end Scoped

/-! ## Scopes as they are written -/

/-- The registries that there are, by their addresses. -/
abbrev Registries := Nat → Option (Registry Value)

/-- A declaration that names no registry is one for the current registry. -/
def targetOf (current : Value) : Value → Value
  | .null => current
  | registry => registry

/-- What becomes of the registries where this one is current, and whether the program fails. Inside
a scope the current registry is that of the scope, and there is no other way to change it. A
declaration is added behind some of the entries of one registry, or fails and adds nothing. -/
inductive Scoped.Does : Value → Scoped → Registries → Except Failure Unit → Registries → Prop
  | skip {current : Value} {before : Registries} : Does current .skip before (.ok ()) before
  | andThen {current : Value} {first second : Scoped} {before mid after : Registries}
      {result : Except Failure Unit} (hfirst : Does current first before (.ok ()) mid)
      (hsecond : Does current second mid result after) :
      Does current (.andThen first second) before result after
  | stop {current : Value} {first second : Scoped} {before after : Registries} {failure : Failure}
      (hfirst : Does current first before (.error failure) after) :
      Does current (.andThen first second) before (.error failure) after
  | declare {current v : Value} {b : Builtin} {positional kept : List Value} {keywords : Fields}
      {before : Registries} {address : Nat} {r : Registry Value}
      (htarget : targetOf current (namedRegistry keywords) = .ref address) (hr : before address = some r)
      (hkept : kept.Sublist r.entries) :
      Does current (.declare b positional keywords) before (.ok ())
        (Function.update before address (some ⟨kept ++ [v]⟩))
  | refused {current : Value} {b : Builtin} {positional : List Value} {keywords : Fields}
      {before : Registries} {failure : Failure} :
      Does current (.declare b positional keywords) before (.error failure) before
  | clear {before : Registries} {address : Nat} {r : Registry Value}
      (hr : before address = some r) :
      Does (.ref address) .clear before (.ok ()) (Function.update before address (some .empty))
  | current {current : Value} {next : Value → Scoped} {before after : Registries}
      {result : Except Failure Unit} (hnext : Does current (next current) before result after) :
      Does current (.current next) before result after
  | raise {current : Value} {failure : Failure} {before : Registries} :
      Does current (.raise failure) before (.error failure) before
  | withinNew {current : Value} {body : Value → Scoped} {before after : Registries}
      {result : Except Failure Unit} {address : Nat} (hnew : before address = none)
      (hbody : Does (.ref address) (body (.ref address))
        (Function.update before address (some .empty)) result after) :
      Does current (.within none body) before result after
  | within {current given : Value} {body : Value → Scoped} {before after : Registries}
      {result : Except Failure Unit} (hbody : Does given (body given) before result after) :
      Does current (.within (some given) body) before result after
  | rescue {current : Value} {body handler : Scoped} {before after : Registries}
      (hbody : Does current body before (.ok ()) after) :
      Does current (.rescue body handler) before (.ok ()) after
  | handled {current : Value} {body handler : Scoped} {before mid after : Registries}
      {failure : Failure} {result : Except Failure Unit}
      (hbody : Does current body before (.error failure) mid)
      (hhandler : Does current handler mid result after) :
      Does current (.rescue body handler) before result after

/-! ## Registries of a session -/

variable {s t : Session} {address : Nat} {r r' : Registry Value} {v : Value} {cell : Cell}

def Session.registries (s : Session) : Registries := fun address =>
  match s.heap.cells[address]? with
  | some (.registry r) => some r
  | _ => none

theorem registries_eq_some_iff : s.registries address = some r ↔ s.HasRegistry address r := by
  unfold registries HasRegistry
  split <;> simp_all

def Session.IsRegistry (s : Session) (v : Value) : Prop :=
  ∃ address r, v = .ref address ∧ s.registries address = some r

theorem registries_allocate (h : ∀ r, cell ≠ .registry r) :
    Session.registries { s with heap := (s.heap.allocate cell).2 } = s.registries := by
  funext address
  simp only [registries, Heap.allocate, Array.getElem?_push]
  by_cases hnew : address = s.heap.cells.size
  · have hnone : s.heap.cells[address]? = none := by simp [hnew]
    rw [if_pos hnew, hnone]
    cases cell with
    | registry r => exact absurd rfl (h r)
    | _ => rfl
  · rw [if_neg hnew]

theorem registries_allocate_empty :
    Session.registries { s with heap := (s.heap.allocate (.registry .empty)).2 } =
      Function.update s.registries s.heap.cells.size (some .empty) := by
  funext address
  simp only [registries, Heap.allocate, Array.getElem?_push, Function.update_apply]
  by_cases hnew : address = s.heap.cells.size <;> simp [hnew]

theorem registries_asked (m : Method) (v : Value) : (s.asked m v).registries = s.registries :=
  registries_allocate nofun

theorem registries_changed (hr : s.HasRegistry address r) (r' : Registry Value)
    (declared : Option Declaration) :
    (s.changed address r' declared).registries =
      Function.update s.registries address (some r') := by
  have hlt := (Array.getElem?_eq_some_iff.mp hr).1
  funext other
  simp only [registries, changed, getElem?_replace, Function.update_apply]
  by_cases hsame : address = other
  · simp [hsame, hsame ▸ hlt]
  · simp [hsame, Ne.symm hsame]

/-! ## One operation -/

/-- What is left of a declaration for this registry: it was added, or else nothing became of any
registry. -/
inductive Session.Declares (s : Session) (address : Nat) (r : Registry Value) :
    Except Failure Value × Session → Prop
  | added {v : Value} {kept : List Value} {t : Session} (hscopes : t.heap.scopes = s.heap.scopes)
      (hkept : kept.Sublist r.entries)
      (hregistries : t.registries = Function.update s.registries address (some ⟨kept ++ [v]⟩)) :
      Declares s address r (.ok v, t)
  | refused {failure : Failure} {t : Session} (hscopes : t.heap.scopes = s.heap.scopes)
      (hregistries : t.registries = s.registries) : Declares s address r (.error failure, t)

theorem Session.Declares.trans {out : Except Failure Value × Session}
    (h : t.Declares address r out) (hscopes : t.heap.scopes = s.heap.scopes)
    (hregistries : t.registries = s.registries) : s.Declares address r out := by
  cases h with
  | added hscopes' hkept hadded =>
    exact .added (hscopes'.trans hscopes) hkept (hregistries ▸ hadded)
  | refused hscopes' hkept => exact .refused (hscopes'.trans hscopes) (hkept.trans hregistries)

theorem Registry.register_eq_ok {same : Value → Value → Except Failure Bool}
    (h : r.register same v = .ok r') : ∃ kept, kept.Sublist r.entries ∧ r' = ⟨kept ++ [v]⟩ := by
  obtain ⟨kept, hkept, h⟩ := bind_eq_ok_iff.mp h
  cases h
  exact ⟨kept, sublist_of_filterM_ok hkept, rfl⟩

theorem declares_callAttribute (hr : s.registries address = some r) (v : Value) :
    s.Declares address r ((callAttribute call (.ref address) "register" [v]).on s) := by
  have hr := registries_eq_some_iff.mp hr
  have hasked := registries_asked (s := s) .register (.ref address)
  rw [on_callAttribute_register hr]
  cases hregister : r.register (s.asked .register (.ref address)).heap.sameName v with
  | error failure => exact .refused rfl hasked
  | ok r' =>
    obtain ⟨kept, hkept, rfl⟩ := Registry.register_eq_ok hregister
    refine .added rfl hkept ?_
    rw [← hasked]
    exact registries_changed (hr.asked _ _) _ _

theorem on_declare (v target : Value) :
    (declare call v target).on s =
      (callAttribute call (targetOf s.heap.scopes.current target) "register" [v]).on s := by
  cases target <;> rfl

theorem runBuiltin_of_declares {b : Builtin} (hb : b.declares) (arguments : Arguments) :
    ∃ cell, (∀ r, cell ≠ .registry r) ∧ runBuiltin call b arguments =
      (do declare call (← allocate cell) (arguments.get "registry")) := by
  cases b with
  | declareParam kind =>
    refine ⟨.param _, ?_, rfl⟩
    exact nofun
  | declareSecret json =>
    refine ⟨.secret _, ?_, rfl⟩
    exact nofun
  | _ => cases hb

/-- The registry of a declaration can only be given by keyword. -/
theorem get_registry_of_bind {b : Builtin} (hb : b.declares) {positional : List Value}
    {keywords : Fields} {arguments : Arguments}
    (hbind : b.signature.bind positional keywords = .ok arguments) :
    arguments.get "registry" = namedRegistry keywords := by
  have hname : Text.ofString "registry" ∉ ["name"].map Text.ofString := by decide
  rw [Arguments.get, namedRegistry]
  cases b with
  | declareParam kind => rw [get?_of_bind (by simp [Builtin.signature]) hname hbind]
  | declareSecret json => rw [get?_of_bind (by simp [Builtin.signature]) hname hbind]
  | _ => cases hb

theorem declares_callBuiltin {b : Builtin} {positional : List Value} {keywords : Fields}
    (hb : b.declares)
    (htarget : targetOf s.heap.scopes.current (namedRegistry keywords) = .ref address)
    (hr : s.registries address = some r) :
    s.Declares address r ((callBuiltin call b positional keywords).on s) := by
  have hreceives : b.receivesObject = false := by
    cases b with
    | declareParam _ | declareSecret _ => rfl
    | _ => cases hb
  rw [callBuiltin, hreceives, if_neg Bool.false_ne_true, List.nil_append, on_bind, on_ofExcept]
  cases hbind : b.signature.bind positional keywords with
  | error failure => exact .refused rfl rfl
  | ok arguments =>
    obtain ⟨cell, hcell, hrun⟩ := runBuiltin_of_declares hb arguments
    let u : Session := { s with heap := (s.heap.allocate cell).2 }
    have hu : u.registries = s.registries := registries_allocate hcell
    have htarget : targetOf u.heap.scopes.current (namedRegistry keywords) = .ref address := htarget
    rw [next_ok, hrun, get_registry_of_bind hb hbind, on_bind, on_allocate, next_ok, on_declare,
      htarget]
    exact (declares_callAttribute (hu ▸ hr) _).trans rfl hu

theorem on_clearParams (hcurrent : s.heap.scopes.current = .ref address)
    (hr : s.registries address = some r) :
    ∃ t, (callBuiltin call .clearParams [] []).on s = (.ok .null, t) ∧
      t.heap.scopes = s.heap.scopes ∧
      t.registries = Function.update s.registries address (some .empty) := by
  have hr := registries_eq_some_iff.mp hr
  have hclear : (callBuiltin call .clearParams [] []).on s =
      (callAttribute call s.heap.scopes.current "clear" []).on s := rfl
  refine ⟨(s.asked .clear (.ref address)).changed address .empty none, ?_, rfl, ?_⟩
  · rw [hclear, hcurrent, on_callAttribute_clear hr]
  · rw [registries_changed (hr.asked _ _), registries_asked]

/-- A scope is left however its body ends. -/
theorem Scoped.on_within {given : Option Value} (body : Value → Scoped)
    (henter : (enterRegistry given).on s = (.ok v, t)) :
    ∃ u, (Scoped.within given body).run.on s = (((body v).run.on t).1, u) ∧
      u.heap.scopes = ((body v).run.on t).2.heap.scopes.leave ∧
      u.registries = ((body v).run.on t).2.registries := by
  have hleave : ∀ w : Session, leaveRegistry.on w =
      (.ok (), { w with heap := { w.heap with scopes := w.heap.scopes.leave } }) := fun _ => rfl
  rw [run, on_bind, henter, next_ok, on_ensuring, hleave, next_ok, on_ofExcept]
  exact ⟨_, rfl, rfl, rfl⟩

/-! ## Whole programs -/

theorem exists_update {registries : Registries} (other : Nat) (r : Registry Value)
    (h : ∃ r, registries address = some r) :
    ∃ r', Function.update registries other (some r) address = some r' := by
  rw [Function.update_apply]
  split
  · exact ⟨r, rfl⟩
  · exact h

/-- No registry ends. -/
theorem Scoped.Does.keeps {current : Value} {p : Scoped} {before after : Registries}
    {result : Except Failure Unit} (h : p.Does current before result after)
    (hr : ∃ r, before address = some r) : ∃ r, after address = some r := by
  induction h with
  | skip | refused | raise => exact hr
  | andThen _ _ ihFirst ihSecond => exact ihSecond (ihFirst hr)
  | stop _ ih | current _ ih | within _ ih | rescue _ ih => exact ih hr
  | declare | clear => exact exists_update _ _ hr
  | withinNew _ _ ih => exact ih (exists_update _ _ hr)
  | handled _ _ ihBody ihHandler => exact ihHandler (ihBody hr)

theorem isRegistry_of_does {p : Scoped} {current : Value} {result : Except Failure Unit}
    (h : p.Does current s.registries result t.registries) (hv : s.IsRegistry v) :
    t.IsRegistry v := by
  obtain ⟨address, r, rfl, hr⟩ := hv
  obtain ⟨r', hr'⟩ := h.keeps ⟨r, hr⟩
  exact ⟨address, r', rfl, hr'⟩

/-- After a program the scopes are those before it, and the registries are what the program says as
it is written. -/
theorem Scoped.run_does {p : Scoped} {known : Set Value} (hnames : p.Names known)
    (hknown : ∀ v ∈ known, s.IsRegistry v) (hcurrent : s.IsRegistry s.heap.scopes.current) :
    (p.run.on s).2.heap.scopes = s.heap.scopes ∧
      p.Does s.heap.scopes.current s.registries (p.run.on s).1 (p.run.on s).2.registries := by
  induction p generalizing s known with
  | skip => exact ⟨rfl, .skip⟩
  | raise failure => exact ⟨rfl, .raise⟩
  | andThen first second ihFirst ihSecond =>
    obtain ⟨hscopes, hfirst⟩ := ihFirst hnames.1 hknown hcurrent
    rw [run, on_bind]
    cases hrun : first.run.on s with
    | mk result t =>
      rw [hrun] at hscopes hfirst
      cases result with
      | error failure => exact ⟨hscopes, .stop hfirst⟩
      | ok u =>
        obtain ⟨hscopes', hsecond⟩ := ihSecond hnames.2
          (fun v hv => isRegistry_of_does hfirst (hknown v hv))
          (hscopes ▸ isRegistry_of_does hfirst hcurrent)
        rw [next_ok]
        exact ⟨hscopes'.trans hscopes, .andThen hfirst (hscopes ▸ hsecond)⟩
  | declare b positional keywords =>
    obtain ⟨address, r, htarget, hr⟩ : s.IsRegistry
        (targetOf s.heap.scopes.current (namedRegistry keywords)) := by
      rcases hnames.2 with hnone | hsome
      · rw [hnone]
        exact hcurrent
      · obtain ⟨address, r, hv, hr⟩ := hknown _ hsome
        exact ⟨address, r, by rw [hv]; rfl, hr⟩
    have hdeclares : s.Declares address r ((callBuiltin call b positional keywords).on s) :=
      declares_callBuiltin hnames.1 htarget hr
    rw [run, on_bind]
    generalize (callBuiltin call b positional keywords).on s = out at hdeclares
    cases hdeclares with
    | added hscopes hkept hregistries =>
      refine ⟨hscopes, ?_⟩
      rw [next_ok, on_pure, hregistries]
      exact .declare htarget hr hkept
    | refused hscopes hregistries =>
      refine ⟨hscopes, ?_⟩
      rw [next_error, hregistries]
      exact .refused
  | clear =>
    obtain ⟨address, r, hv, hr⟩ := hcurrent
    obtain ⟨t, hrun, hscopes, hregistries⟩ := on_clearParams hv hr
    rw [run, on_bind, hrun, next_ok, on_pure, hregistries, hv]
    exact ⟨hscopes, .clear hr⟩
  | current next ih =>
    have hasked : (callBuiltin call .currentRegistry [] []).on s =
        (.ok s.heap.scopes.current, s) := rfl
    rw [run, on_bind, hasked, next_ok]
    obtain ⟨hscopes, hnext⟩ := ih _ (hnames s.heap.scopes.current)
      (Set.forall_mem_insert.mpr ⟨hcurrent, hknown⟩) hcurrent
    exact ⟨hscopes, .current hnext⟩
  | within given body ih =>
    cases given with
    | some registry =>
      let u : Session :=
        { s with heap := { s.heap with scopes := s.heap.scopes.enter registry } }
      have henter : (enterRegistry (some registry)).on s = (.ok registry, u) := rfl
      obtain ⟨t, hrun, hleft, hregistries⟩ := on_within body henter
      have hregistry : u.IsRegistry registry := hknown _ (hnames.1 _ rfl)
      obtain ⟨hscopes, hbody⟩ := ih registry (hnames.2 registry)
        (Set.forall_mem_insert.mpr ⟨hregistry, hknown⟩) hregistry
      rw [hrun, hleft, hregistries, hscopes]
      exact ⟨rfl, .within hbody⟩
    | none =>
      let address := s.heap.cells.size
      let u : Session := { s with heap :=
        { (s.heap.allocate (.registry .empty)).2 with
          scopes := s.heap.scopes.enter (.ref address) } }
      have henter : (enterRegistry none).on s = (.ok (.ref address), u) := rfl
      obtain ⟨t, hrun, hleft, hregistries⟩ := on_within body henter
      have hu : u.registries = Function.update s.registries address (some .empty) :=
        registries_allocate_empty
      have hregistry : u.IsRegistry (.ref address) := ⟨address, .empty, rfl, by simp [hu]⟩
      have hnew : s.registries address = none := by simp [registries, address]
      have hkept : ∀ v, s.IsRegistry v → u.IsRegistry v := by
        rintro v ⟨other, r, rfl, hr⟩
        obtain ⟨r', hr'⟩ := exists_update address .empty ⟨r, hr⟩
        exact ⟨other, r', rfl, hu ▸ hr'⟩
      obtain ⟨hscopes, hbody⟩ := ih _ (hnames.2 (.ref address))
        (Set.forall_mem_insert.mpr ⟨hregistry, fun v hv => hkept v (hknown v hv)⟩) hregistry
      rw [hrun, hleft, hregistries, hscopes]
      exact ⟨rfl, .withinNew hnew (hu ▸ hbody)⟩
  | rescue body handler ihBody ihHandler =>
    obtain ⟨hscopes, hbody⟩ := ihBody hnames.1 hknown hcurrent
    rw [run, on_tryCatch]
    cases hrun : body.run.on s with
    | mk result t =>
      rw [hrun] at hscopes hbody
      cases result with
      | ok u => exact ⟨hscopes, .rescue hbody⟩
      | error failure =>
        obtain ⟨hscopes', hhandler⟩ := ihHandler hnames.2
          (fun v hv => isRegistry_of_does hbody (hknown v hv))
          (hscopes ▸ isRegistry_of_does hbody hcurrent)
        rw [rescue_error]
        exact ⟨hscopes'.trans hscopes, .handled hbody (hscopes ▸ hhandler)⟩

/-- A new registry is entered, and entered again. A declaration inside goes to the registry that it
names, and the inner scope ends in a failure. -/
def enteredTwice : Scoped :=
  .andThen
    (.within none fun registry =>
      .andThen (.declare (.declareParam .string) [.text "FIRST"] [])
        (.rescue
          (.within (some registry) fun _ =>
            .andThen (.declare (.declareSecret false) [.text "KEY"] [("registry", .ref 1)])
              (.raise .noValue))
          (.declare (.declareParam .int) [.text "SECOND"] [])))
    (.declare (.declareParam .string) [.text "LAST"] [])

def Session.namesAt (s : Session) (address : Nat) : List Text :=
  ((s.registries address).getD .empty).entries.filterMap s.heap.declaredName?

theorem Scoped.run_does_enteredTwice :
    let s := Session.fresh default default
    enteredTwice.Names {.ref 1} ∧ s.IsRegistry (.ref 1) ∧ s.heap.scopes.current = .ref 1 ∧
      (enteredTwice.run.on s).2.heap.scopes = s.heap.scopes ∧
      enteredTwice.Does (.ref 1) s.registries (enteredTwice.run.on s).1
        (enteredTwice.run.on s).2.registries ∧
      (enteredTwice.run.on s).2.namesAt 1 = ["KEY", "LAST"] ∧
      (enteredTwice.run.on s).2.namesAt s.heap.cells.size = ["FIRST", "SECOND"] := by
  intro s
  have hnames : enteredTwice.Names {.ref 1} := by
    simp [enteredTwice, Names, namedRegistry, Builtin.declares, Assoc.get?, Assoc.lookBy]
  have hcurrent : s.heap.scopes.current = .ref 1 := rfl
  have hdefault : s.IsRegistry (.ref 1) := ⟨1, .empty, rfl, rfl⟩
  obtain ⟨hscopes, hdoes⟩ :=
    run_does hnames (fun v hv => hv ▸ hdefault) (hcurrent ▸ hdefault)
  rw [hcurrent] at hdoes
  refine ⟨hnames, hdefault, hcurrent, hscopes, hdoes, ?_⟩
  decide +kernel

end FunctionManifest
