import FunctionManifest.Language.Evaluate
import FunctionManifest.Proofs.Session.Growth
import FunctionManifest.Proofs.Session.Within

/-!
# What calls do to a session

Whatever a call leads to, it makes new objects, changes collections and registries, and writes to
the log. A call without arguments has nothing to put into an object, so it can only empty what is
there. Only a call with a target, a name and a value can set an attribute, and no object is ever
asked for something with that many arguments.
-/

namespace FunctionManifest

open Eval

@[grind =] theorem Text.ofString_inj {s t : String} : Text.ofString s = Text.ofString t ↔ s = t := by
  simp [Text.ofString, Text.ofChars, List.map_inj_right, String.toList_inj]

section

variable {R : Session → Session → Prop} [AskingFrame R]

/-! ## Rendering -/

/-- Whatever rendering asks keeps to the relation. -/
structure Asking.Within (R : Session → Session → Prop) (ask : Asking Eval) : Prop where
  name : ∀ v, Eval.Within R (ask.name v)
  render : ∀ v, Eval.Within R (ask.render v)
  printed : ∀ v, Eval.Within R (ask.printed v)
  type : ∀ v, Eval.Within R (ask.type v)

attribute [grind ←] Asking.Within.name Asking.Within.render Asking.Within.printed
  Asking.Within.type

@[grind ←] theorem within_asking_text {ask : Asking Eval} (h : ask.Within R) (v : Value) :
    Within R (ask.text v) := by
  unfold Asking.text
  grind

@[grind ←] theorem within_joinable {ask : Asking Eval} (h : ask.Within R) (index : Nat)
    (items : List Value) : Within R (ask.joinable index items) := by
  induction items generalizing index with
  | nil => exact within_pure []
  | cons v rest ih =>
    unfold Asking.joinable
    grind

mutual

theorem within_expression_render {ask : Asking Eval} (h : ask.Within R) :
    (e : Expression) → Within R (e.render ask)
  | .base => within_throw _
  | .param p => h.name p
  | .foreign v => h.render v
  | .endless => within_throw _
  | .compare op left right => by
    have hleft := within_expression_render h left
    have hright := within_operand_render h right
    unfold Expression.render
    grind
  | .ifElse test ifTrue ifFalse => by
    have htest := within_expression_render h test
    have hifTrue := within_operand_render h ifTrue
    have hifFalse := within_operand_render h ifFalse
    unfold Expression.render
    grind

theorem within_operand_render {ask : Asking Eval} (h : ask.Within R) :
    (o : Operand) → Within R (o.render ask)
  | .expression e => within_expression_render h e
  | .param p => h.name p
  | .null | .bool _ | .text _ => within_pure _
  | .int n => by
    unfold Operand.render
    grind
  | .list items | .tuple items => by
    have hitems := within_renderOperands h items
    unfold Operand.render
    grind
  | .other v => within_map _ (h.printed v)
  | .endless => within_throw _

theorem within_renderOperands {ask : Asking Eval} (h : ask.Within R) :
    (items : List Operand) → Within R (renderOperands ask items)
  | [] => within_pure []
  | item :: rest => by
    have hitem := within_operand_render h item
    have hrest := within_renderOperands h rest
    unfold renderOperands
    grind

end

attribute [grind ←] within_expression_render within_operand_render

@[grind ←] theorem within_deferredText {ask : Asking Eval} (h : ask.Within R) (e : Expression) :
    Within R (e.deferredText ask) := by
  unfold Expression.deferredText
  grind

mutual

theorem within_setting_wire {ask : Asking Eval} (h : ask.Within R) :
    (setting : Setting) → Within R (setting.wire ask)
  | .expression e => by
    unfold Setting.wire
    grind
  | .param p => by
    unfold Setting.wire
    grind
  | .reset | .pattern _ | .regex _ | .kept _ => within_pure _
  | .mapping entries => within_map _ (within_wireEntries h entries)
  | .list items | .tuple items => within_map _ (within_wireItems h items)
  | .endless => within_throw _

theorem within_wireItems {ask : Asking Eval} (h : ask.Within R) :
    (items : List Setting) → Within R (wireItems ask items)
  | [] => within_pure []
  | item :: rest => by
    have hitem := within_setting_wire h item
    have hrest := within_wireItems h rest
    unfold wireItems
    grind

theorem within_wireEntries {ask : Asking Eval} (h : ask.Within R) :
    (entries : List (Value × Setting)) → Within R (wireEntries ask entries)
  | [] => within_pure []
  | (key, item) :: rest => by
    have hitem := within_setting_wire h item
    have hrest := within_wireEntries h rest
    unfold wireEntries
    grind

end

attribute [grind ←] within_setting_wire

/-! ## Attributes -/

/-- The caller keeps to the relation as long as it asks without arguments. -/
def AsksQuietly (R : Session → Session → Prop) (call : Caller) : Prop :=
  ∀ v, Within R (call v [] [])

@[grind .] theorem within_isStarting (v : Value) : Within R (isStarting v) := by
  unfold isStarting
  grind

@[grind .] theorem within_missing (v : Value) (name : Text) : Within R (missing v name) := by
  unfold missing
  grind

/-- Under any other name than this one there is no method that empties a collection. -/
theorem Cell.emptied?_of_method? {cell method : Cell} {v : Value} {name : Text}
    (hname : name ≠ "clear") (h : cell.method? v name = some method) : method.emptied? = none := by
  have hmethod : ∀ methods m self, Method.named? methods name = some m →
      (Cell.method m self).emptied? = none := by
    intro methods m self hm
    have hlabel : name = m.label := by simpa using List.find?_some hm
    cases m with
    | removeAll => exact absurd hlabel hname
    | _ => rfl
  unfold Cell.method? at h
  split at h <;> obtain ⟨m, hm, rfl⟩ := Option.map_eq_some_iff.mp h <;> exact hmethod _ _ _ hm

/-- A method that empties a collection is asked of the collection that it empties. -/
theorem Cell.emptied?_eq_of_method? {cell method : Cell} {v w : Value} {name : Text}
    (h : cell.method? v name = some method) (hw : method.emptied? = some w) : w = v := by
  have hmethod : ∀ m self, (Cell.method m self).emptied? = some w → self = some w := by
    intro m self hw
    cases m <;> simp [Cell.emptied?] at hw
    exact hw
  unfold Cell.method? at h
  split at h <;> obtain ⟨m, hm, rfl⟩ := Option.map_eq_some_iff.mp h
  · have hself := hmethod _ _ hw
    split at hself <;> cases hself
    rfl
  · cases hmethod _ _ hw
    rfl

@[grind ←] theorem within_ready?_of_ne (v : Value) {name : Text} (hname : name ≠ "clear") :
    Within R (ready? v name) := by
  have hmethod : ∀ heap : Heap, ∀ method, (heap.cell? v).bind (·.method? v name) = some method →
      method.emptied? = none := by
    intro heap method h
    obtain ⟨cell, -, h⟩ := Option.bind_eq_some_iff.mp h
    exact Cell.emptied?_of_method? hname h
  unfold ready?
  grind

variable {call : Caller}

@[grind ←] theorem within_askAttribute (h : AsksQuietly R call) {v : Value} {name : Text}
    (hready : Within R (ready? v name)) : Within R (callAttribute call v name []) := by
  unfold callAttribute
  grind [AsksQuietly]

theorem within_askingWith (h : AsksQuietly R call) {printed : Value → Eval Text}
    (hprinted : ∀ v, Within R (printed v)) : (askingWith call printed).Within R where
  name v := within_reading _
  render v := within_askAttribute h (within_ready?_of_ne v (by decide))
  printed := hprinted
  type v := by
    unfold askingWith
    grind

@[grind ←] theorem within_printedFrom (h : AsksQuietly R call) (fuel : Nat) (v : Value) :
    Within R (printedFrom call fuel v) := by
  induction fuel generalizing v with
  | zero => exact within_throw _
  | succ fuel ih =>
    have hask := within_askingWith h ih
    unfold printedFrom
    grind

@[grind ←] theorem within_printed (h : AsksQuietly R call) (v : Value) :
    Within R (printed call v) :=
  within_printedFrom h _ v

@[grind ←] theorem within_asking (h : AsksQuietly R call) : (asking call).Within R :=
  within_askingWith h (within_printed h)

@[grind ←] theorem within_param_text? {printed : Value → Eval Text}
    (h : ∀ v, Within R (printed v)) (heap : Heap) (environment : Environment) (p : Param) :
    Within R (p.text? heap printed environment) := by
  unfold Param.text?
  grind

@[grind ←] theorem within_readText {printed : Value → Eval Text} (h : ∀ v, Within R (printed v))
    (heap : Heap) (environment : Environment) (p : Param) (zero : Value)
    (read : Text → Text → Reading) :
    Within R (p.readText heap printed environment zero read) := by
  unfold Param.readText
  grind

@[grind ←] theorem within_param_read {printed : Value → Eval Text} (h : ∀ v, Within R (printed v))
    (heap : Heap) (environment : Environment) (p : Param) :
    Within R (p.read heap printed environment) := by
  unfold Param.read
  grind

@[grind ←] theorem within_readParam (h : AsksQuietly R call) (p : Param) :
    Within R (readParam call p) := by
  unfold readParam
  grind

@[grind .] theorem within_rawValue (p : Param) : Within R (rawValue p) := by
  unfold rawValue
  grind

@[grind ←] theorem within_computed? (h : AsksQuietly R call) (cell : Cell) (name : String) :
    Within R (computed? call cell name) := by
  unfold computed?
  grind

@[grind ←] theorem within_attribute? (h : AsksQuietly R call) {v : Value} {name : Text}
    (hready : Within R (ready? v name)) : Within R (attribute? call v name) := by
  unfold attribute?
  grind

@[grind ←] theorem within_getAttribute (h : AsksQuietly R call) {v : Value} {name : Text}
    (hready : Within R (ready? v name)) : Within R (getAttribute call v name) := by
  unfold getAttribute
  grind

/-! ## Manifests -/

@[grind ←] theorem within_listedEntries (h : AsksQuietly R call) (v : Value) :
    Within R (listedEntries call v) := by
  unfold listedEntries
  grind

@[grind ←] theorem within_fromEntries {α : Type} (h : AsksQuietly R call) (v : Value)
    (make : Heap → Entries → Except Failure α) : Within R (fromEntries call v make) := by
  unfold fromEntries
  grind

@[grind ←] theorem within_wireOf (h : AsksQuietly R call) (v : Value) :
    Within R (wireOf call v) := by
  unfold wireOf
  grind

/-- Whatever describing an endpoint needs keeps to the relation. -/
structure EndpointReader.Within (R : Session → Session → Prop) (reader : EndpointReader Eval) :
    Prop where
  part : ∀ {name : String}, name ≠ "clear" → Eval.Within R (reader.part name)
  convert : ∀ v, Eval.Within R (reader.convert v)
  entries : ∀ v, Eval.Within R (reader.entries v)
  put : ∀ entries key v, Eval.Within R (reader.put entries key v)

attribute [grind ←] EndpointReader.Within.part EndpointReader.Within.convert
  EndpointReader.Within.entries EndpointReader.Within.put

@[grind ←] theorem within_putOptions {reader : EndpointReader Eval} (h : reader.Within R)
    (wire options : Entries) : Within R (reader.putOptions wire options) := by
  induction options generalizing wire with
  | nil => exact within_pure wire
  | cons option rest ih =>
    unfold EndpointReader.putOptions
    grind

@[grind ←] theorem within_endpointReader_wire {reader : EndpointReader Eval}
    (h : reader.Within R) : Within R reader.wire := by
  unfold EndpointReader.wire
  refine within_bind (h.part (by decide)) fun entryPoint => ?_
  refine within_bind (h.part (by decide)) fun platform => ?_
  refine within_bind (h.part (by decide)) fun labels => within_bind (h.convert _) fun labels => ?_
  grind

theorem within_endpointReader (h : AsksQuietly R call) (v : Value) :
    (endpointReader call v).Within R where
  part hname := within_getAttribute h (within_ready?_of_ne v (by grind))
  convert v := by
    unfold endpointReader
    grind
  entries v := within_fromEntries h v _
  put entries key v := within_reading _

@[grind ←] theorem within_endpointWire (h : AsksQuietly R call) (v : Value) :
    Within R (endpointWire call v) :=
  within_endpointReader_wire (within_endpointReader h v)

@[grind ←] theorem within_stackWire (h : AsksQuietly R call) (v : Value) :
    Within R (stackWire call v) := by
  unfold stackWire
  refine within_bind (by grind) fun endpoints => ?_
  refine within_bind (within_fromEntries h endpoints _) fun entries => ?_
  refine within_bind (by grind) fun endpoints => ?_
  refine within_bind (by grind) fun apis => within_bind (by grind) fun apis => ?_
  grind

@[grind ←] theorem within_specOf (h : AsksQuietly R call) (v : Value) :
    Within R (specOf call v) := by
  unfold specOf
  grind

@[grind ←] theorem within_paramSpec (h : AsksQuietly R call) (p : Param) :
    Within R (paramSpec call p) := by
  unfold paramSpec
  grind

@[grind ←] theorem within_selectSpec (h : AsksQuietly R call) (many : Bool) (choices : Value) :
    Within R (selectSpec call many choices) := by
  unfold selectSpec
  grind

@[grind .] theorem within_allocateApi (required : RequiredApi) :
    Within R (allocateApi required) := by
  unfold allocateApi
  grind

@[grind .] theorem within_allocateEndpoint (e : Endpoint) : Within R (allocateEndpoint e) := by
  unfold allocateEndpoint
  grind

@[grind .] theorem within_allocatePattern (template : Text) :
    Within R (allocatePattern template) := by
  unfold allocatePattern
  grind

@[grind .] theorem within_allocatePrompt (many : Bool) (choices : List Choice) :
    Within R (allocatePrompt many choices) := by
  unfold allocatePrompt
  grind

@[grind .] theorem within_attach (trigger : Trigger) (invoke : Value) :
    Within R (attach trigger invoke) := by
  unfold attach
  grind

@[grind .] theorem within_newComparison (op left right : Value) :
    Within R (newComparison op left right) := by
  unfold newComparison
  grind

/-! ## Methods -/

@[grind .] theorem within_matchable (v : Value) : Within R (matchable v) := by
  unfold matchable
  grind

/-- What comes after asking for a registry acts on the session in which it is one. -/
theorem within_asRegistry {α : Type} {v : Value} {name : Text} {f : Nat × Registry Value → Eval α}
    (h : ∀ s address r, s.heap.cells[address]? = some (.registry r) →
      R s ((f (address, r)).on s).2) :
    Within R (asRegistry v name >>= f) := by
  intro s
  have hmissing : ∀ v, Within R (missing v name >>= fun failure => (throw failure : Eval α)) := by
    grind
  unfold asRegistry
  simp only [on_bind, on_cell?, next_ok]
  split
  · rename_i address r hcell
    exact h s address r hcell
  · rename_i w _ _ _
    have hkept := hmissing w s
    simp only [on_bind] at hkept ⊢
    cases hrun : (missing w name).on s with
    | mk result t =>
      rw [hrun] at hkept
      cases result <;> exact hkept

/-- Only a collection is changed, and what a change does to a collection is known. -/
theorem related_change {s : Session} {v : Value} {changed : Cell → Cell}
    (hlist : ∀ address items, v = .ref address → s.heap.cells[address]? = some (.list items) →
      R s { s with heap := s.heap.replace address (changed (.list items)) })
    (hmapping : ∀ address entries, v = .ref address →
      s.heap.cells[address]? = some (.mapping entries) →
      R s { s with heap := s.heap.replace address (changed (.mapping entries)) })
    (hother : ∀ cell, (∀ items, cell ≠ .list items) → (∀ entries, cell ≠ .mapping entries) →
      changed cell = cell) :
    R s ((change v changed).on s).2 := by
  unfold change
  simp only [on_bind, on_cell?, next_ok]
  split
  · rename_i address cell hcell
    change R s { s with heap := s.heap.replace address (changed cell) }
    by_cases hl : ∃ items, cell = .list items
    · obtain ⟨items, rfl⟩ := hl
      exact hlist address items rfl hcell
    · by_cases hm : ∃ entries, cell = .mapping entries
      · obtain ⟨entries, rfl⟩ := hm
        exact hmapping address entries rfl hcell
      · rw [hother cell (by simpa using hl) (by simpa using hm), Heap.replace_same hcell]
        exact refl_of R s
  · exact refl_of R s

/-- What a kept method is called on is what it empties. -/
theorem related_removeAll {s : Session} {v : Value} {mapping : Bool} {self : Option Value}
    (hcell : s.heap.cell? v = some (.method (.removeAll mapping) self)) :
    R s ((do
      let arguments ← MonadExcept.ofExcept
        ((Method.removeAll mapping).signature.bind self.toList [])
      runMethod call (.removeAll mapping) arguments : Eval Value).on s).2 := by
  cases self with
  | none =>
    obtain ⟨failure, hfailure⟩ : ∃ failure,
        (Method.removeAll mapping).signature.bind [] [] = .error failure := ⟨_, rfl⟩
    simpa [hfailure] using refl_of R s
  | some w =>
    have hbind : (Method.removeAll mapping).signature.bind [w] [] =
        .ok ⟨[("self", w)], [], []⟩ := by
      cases mapping <;> rfl
    simp only [Option.toList_some, hbind, on_bind, on_ofExcept, next_ok]
    refine related_change (v := w) (fun address items hw hfound => ?_)
      (fun address entries hw hfound => ?_) fun cell hlist hmapping => ?_
    · exact AskingFrame.empties s address items ⟨v, _, hcell, congrArg some hw⟩ hfound
    · exact AskingFrame.unmaps s address entries ⟨v, _, hcell, congrArg some hw⟩ hfound
    · cases cell <;> simp at hlist hmapping ⊢

theorem within_asParam (v : Value) (name : Text) : Within R (asParam v name) := by
  unfold asParam
  grind

theorem within_asPattern (v : Value) (name : Text) : Within R (asPattern v name) := by
  unfold asPattern
  grind

theorem within_asEndpoint (v : Value) (name : Text) : Within R (asEndpoint v name) := by
  unfold asEndpoint
  grind

theorem within_newReference (p : Value) : Within R (newReference p) :=
  within_allocate_unemptying rfl

theorem within_newChoice (test : Value) (arguments : Arguments) :
    Within R (newChoice test arguments) :=
  within_allocate_unemptying rfl

attribute [grind .] within_asParam within_asPattern within_asEndpoint within_newReference
  within_newChoice

/-- Methods that change no collection and ask nothing with an argument. -/
def Method.isQuiet : Method → Bool
  | .register | .append | .removeAll _ | .compile | .extractMatches => false
  | _ => true

@[grind ←] theorem within_runMethod_quiet (h : AsksQuietly R call) {m : Method}
    (hquiet : m.isQuiet = true) (arguments : Arguments) :
    Within R (runMethod call m arguments) := by
  cases m with
  | register | append | removeAll | compile | extractMatches => simp [Method.isQuiet] at hquiet
  | find =>
    refine within_asRegistry fun s address r hcell => ?_
    exact within_map _ (within_reading _) s
  | specs =>
    refine within_asRegistry fun s address r hcell => ?_
    exact within_bind (by grind) (fun specs => within_intern _) s
  | clear =>
    refine within_asRegistry fun s address r hcell => ?_
    exact AskingFrame.clears s address r hcell
  | _ =>
    unfold runMethod
    grind

/-- All other methods but one lack an argument when they are called with none. -/
theorem Method.bind_self {m : Method} (h : m.isQuiet = false)
    (hother : ∀ mapping, m ≠ .removeAll mapping) (self : Option Value) :
    ∃ failure, m.signature.bind self.toList [] = .error failure := by
  cases self <;> cases m <;> simp [Method.isQuiet] at h hother <;> exact ⟨_, rfl⟩

/-! ## Calls -/

@[grind .] theorem within_newParam (kind : ParamKind) (arguments : Arguments) :
    Within R (newParam kind arguments) := within_allocate_unemptying rfl

@[grind .] theorem within_newSecret (json : Bool) (arguments : Arguments) :
    Within R (newSecret json arguments) := within_allocate_unemptying rfl

@[grind ←] theorem within_eventTrigger (h : AsksQuietly R call) (arguments : Arguments) :
    Within R (eventTrigger call arguments) := by
  unfold eventTrigger
  grind

@[grind .] theorem within_filterField (name : String) (v : Value) :
    Within R (filterField name v) := by
  unfold filterField
  grind

@[grind .] theorem within_decorateOr (trigger : Trigger) (invoke : Value) :
    Within R (decorateOr trigger invoke) := by
  unfold decorateOr
  grind

@[grind ←] theorem within_callTrigger (h : AsksQuietly R call) (name : TriggerName)
    (arguments : Arguments) : Within R (callTrigger call name arguments) := by
  unfold callTrigger
  cases name <;> grind

@[grind .] theorem within_mappingOr (v : Option Value) : Within R (mappingOr v) := within_intern _

@[grind .] theorem within_listOr (v : Option Value) : Within R (listOr v) := within_intern _

@[grind .] theorem within_newEndpoint (arguments : Arguments) :
    Within R (newEndpoint arguments) := by
  unfold newEndpoint
  grind

@[grind .] theorem within_newStack (arguments : Arguments) : Within R (newStack arguments) := by
  unfold newStack
  grind

@[grind ←] theorem within_makeFunction (h : AsksQuietly R call) (arguments : Arguments) :
    Within R (makeFunction call arguments) := by
  unfold makeFunction
  grind

/-- A failure of any class but one keeps its arguments as they are. -/
@[grind ←] theorem within_newFailure_plain {c : FailureClass} (hclass : c ≠ .exportName)
    (arguments : Arguments) : Within R (newFailure call c arguments) := by
  unfold newFailure
  grind

@[grind .] theorem within_newApis (items : List Value) : Within R (newApis items) := by
  unfold newApis
  grind

@[grind .] theorem within_newSelect (many : Bool) (values : List Value) :
    Within R (newSelect many values) := by
  unfold newSelect
  grind

@[grind .] theorem within_isInstanceOf (v names : Value) : Within R (isInstanceOf v names) := by
  unfold isInstanceOf
  grind

@[grind .] theorem within_lengthOf (v : Value) : Within R (lengthOf v) := by
  unfold lengthOf
  grind

@[grind .] theorem within_nameOfModule (path isPackage : Value) :
    Within R (nameOfModule path isPackage) := by
  unfold nameOfModule
  grind

@[grind .] theorem within_isMultiSegment (segment : Value) :
    Within R (isMultiSegment segment) := by
  unfold isMultiSegment
  grind

/-- What can be called by name without putting anything into an object, asking anything with an
argument or looking for an attribute that is given. -/
def Builtin.isQuiet : Builtin → Bool
  | .declareParam _ | .declareSecret _ | .splitPath | .newPattern | .compilePattern
  | .newFailure .exportName | .exported | .setAttribute => false
  | _ => true

/-- The current registry may be asked to empty itself. -/
theorem within_clearParams (h : AsksQuietly R call) :
    Within R (currentRegistry >>= fun v => callAttribute call v "clear" []) := by
  intro s
  have hready : R s ((ready? s.heap.scopes.current "clear").on s).2 := by
    simp only [ready?, on_bind, on_heap, next_ok]
    split
    · exact refl_of R s
    · split
      · rename_i method hmethod
        refine AskingFrame.allocates s method fun v hv => ?_
        obtain ⟨cell, -, hmethod⟩ := Option.bind_eq_some_iff.mp hmethod
        exact Cell.emptied?_eq_of_method? hmethod hv
      · exact refl_of R s
  refine related_bind (within_currentRegistry s) fun v t hrun => ?_
  cases hrun
  refine related_bind hready fun found? t _ => ?_
  cases found? with
  | some found => exact h found t
  | none => exact within_bind (within_missing _ _) (fun failure => within_throw failure) t

@[grind ←] theorem within_runBuiltin_quiet (h : AsksQuietly R call) {b : Builtin}
    (hquiet : b.isQuiet = true) (arguments : Arguments) :
    Within R (runBuiltin call b arguments) := by
  unfold runBuiltin
  cases b with
  | clearParams => exact within_clearParams h
  | _ => grind [Builtin.isQuiet]

/-- All else lacks an argument when it is called with none. -/
theorem Builtin.bind_nothing {b : Builtin} (h : b.isQuiet = false) :
    ∃ failure, b.signature.bind (if b.receivesObject then [.null] else []) [] =
      .error failure := by
  cases b with
  | newFailure c => cases c <;> simp [Builtin.isQuiet] at h; exact ⟨_, rfl⟩
  | declareParam | declareSecret | splitPath | newPattern | compilePattern | exported
  | setAttribute =>
    exact ⟨_, rfl⟩
  | _ => simp [Builtin.isQuiet] at h

@[grind .] theorem within_report (label : Text) (positional : List Value) (keywords : Fields) :
    Within R (report label positional keywords) := within_intern _

/-- However deep calls lead into one another, asking without arguments keeps to the relation. -/
theorem asksQuietly_callValue (fuel : Nat) : AsksQuietly R (callValue fuel) := by
  induction fuel with
  | zero => exact fun v => within_throw _
  | succ fuel ih =>
    intro v s
    unfold callValue
    refine related_bind (within_cell? v s) fun cell t hrun => ?_
    cases hrun
    split
    · exact within_report _ _ _ s
    · exact ih _ s
    · exact within_bind (within_ofExcept _) (fun _ => within_attach _ _) s
    · rename_i b _
      unfold callBuiltin
      cases hquiet : b.isQuiet with
      | true =>
        exact within_bind (within_ofExcept _) (fun _ => within_runBuiltin_quiet ih hquiet _) s
      | false =>
        obtain ⟨failure, hfailure⟩ := Builtin.bind_nothing hquiet
        exact within_of_kept (fun s => by simp [hfailure]) s
    · rename_i m self hcell
      rw [List.append_nil]
      by_cases hempties : ∃ mapping, m = .removeAll mapping
      · obtain ⟨mapping, rfl⟩ := hempties
        exact related_removeAll hcell
      · cases hquiet : m.isQuiet with
        | true =>
          exact within_bind (within_ofExcept _) (fun _ => within_runMethod_quiet ih hquiet _) s
        | false =>
          obtain ⟨failure, hfailure⟩ := Method.bind_self hquiet (by simpa using hempties) self
          exact within_of_kept (fun s => by simp [hfailure]) s
    · exact within_bind within_heap (fun _ => within_throw _) s

end

@[grind .] theorem asksQuietly_call {R : Session → Session → Prop} [AskingFrame R] :
    AsksQuietly R call :=
  asksQuietly_callValue callDepth

/-- A method is made for an object that is there. -/
@[grind .] theorem within_ready? {R : Session → Session → Prop} [QuietFrame R] (v : Value)
    (name : Text) : Within R (ready? v name) := by
  intro s
  simp only [ready?, on_bind, on_heap, next_ok]
  split
  · exact refl_of R s
  · split
    · rename_i method hmethod
      obtain ⟨cell, hcell, hmethod⟩ := Option.bind_eq_some_iff.mp hmethod
      refine QuietFrame.allocates s method fun w hw => .inr ⟨cell, ?_⟩
      rw [Cell.emptied?_eq_of_method? hmethod hw, hcell]
    · exact refl_of R s

/-! ## Asking with an argument -/

section

variable {R : Session → Session → Prop} [Frame R] {call : Caller}

/-- The caller keeps to the relation as long as it asks with one argument at most. -/
def AsksWithin (R : Session → Session → Prop) (call : Caller) : Prop :=
  ∀ v positional, positional.length ≤ 1 → Within R (call v positional [])

omit [Frame R] in
@[grind →] theorem AsksWithin.quietly (h : AsksWithin R call) : AsksQuietly R call := fun v =>
  h v [] (Nat.zero_le 1)

@[grind ←] theorem within_callAttribute (h : AsksWithin R call) (v : Value) (name : Text)
    {positional : List Value} (hlength : positional.length ≤ 1) :
    Within R (callAttribute call v name positional) := by
  unfold callAttribute
  grind [AsksWithin]

@[grind ←] theorem within_partsOf (h : AsksWithin R call) (path : Value) :
    Within R (partsOf call path) := by
  unfold partsOf
  grind

@[grind ←] theorem within_newPattern (h : AsksWithin R call) (template : Value) :
    Within R (newPattern call template) := by
  unfold newPattern
  grind

@[grind ←] theorem within_matchesOf (h : AsksWithin R call) (p : Pattern) (path : Value) :
    Within R (matchesOf call p path) := by
  unfold matchesOf
  grind

@[grind .] theorem within_register (target v : Value) : Within R (register target v) := by
  unfold register
  refine within_asRegistry fun s address r hcell => ?_
  simp only [on_bind, on_reading]
  cases hregister : r.register s.heap.sameName v with
  | error failure => exact refl_of R s
  | ok r' => exact Frame.declares s address r r' v hcell hregister

@[grind ←] theorem within_runMethod (h : AsksWithin R call) (m : Method) (arguments : Arguments) :
    Within R (runMethod call m arguments) := by
  cases hquiet : m.isQuiet with
  | true => exact within_runMethod_quiet h.quietly hquiet arguments
  | false =>
    cases m with
    | append =>
      refine fun s => related_change (fun address items _ => Frame.refills s address items _)
        (fun address entries _ => Frame.remaps s address entries entries) ?_
      intro cell hlist hmapping
      cases cell <;> simp at hlist ⊢
    | removeAll mapping =>
      refine fun s => related_change (fun address items _ => Frame.refills s address items [])
        (fun address entries _ => Frame.remaps s address entries []) ?_
      intro cell hlist hmapping
      cases cell <;> simp at hlist hmapping ⊢
    | register | compile | extractMatches =>
      unfold runMethod
      grind
    | _ => simp [Method.isQuiet] at hquiet

@[grind ←] theorem within_declare (h : AsksWithin R call) (declared target : Value) :
    Within R (declare call declared target) := by
  unfold declare
  grind

@[grind ←] theorem within_groupOf? (h : AsksWithin R call) (groups : Value) :
    Within R (groupOf? call groups) := by
  unfold groupOf?
  grind

@[grind ←] theorem within_newFailure (h : AsksWithin R call) (c : FailureClass)
    (arguments : Arguments) : Within R (newFailure call c arguments) := by
  unfold newFailure
  grind

/-- Of all that can be called by name, only setting an attribute does more than asking. -/
@[grind ←] theorem within_runBuiltin (h : AsksWithin R call) {b : Builtin}
    (hset : b ≠ .setAttribute) (arguments : Arguments) :
    Within R (runBuiltin call b arguments) := by
  cases hquiet : b.isQuiet with
  | true => exact within_runBuiltin_quiet h.quietly hquiet arguments
  | false =>
    unfold runBuiltin
    cases b <;> grind [Builtin.isQuiet]

theorem within_callBuiltin (h : AsksWithin R call) {b : Builtin} (hset : b ≠ .setAttribute)
    (positional : List Value) (keywords : Fields) :
    Within R (callBuiltin call b positional keywords) := by
  unfold callBuiltin
  grind

/-- With one argument at most there is nothing to set. -/
theorem within_setAttribute_asked (positional : List Value) (h : positional.length ≤ 1) :
    Within R (callBuiltin call .setAttribute positional []) := by
  have hfails : ∃ failure, Builtin.setAttribute.signature.bind positional [] = .error failure := by
    match positional, h with
    | [], _ => exact ⟨_, rfl⟩
    | [_], _ => exact ⟨_, rfl⟩
  obtain ⟨failure, hfailure⟩ := hfails
  have hreceives : Builtin.setAttribute.receivesObject = false := rfl
  refine within_of_kept fun s => ?_
  simp [callBuiltin, hreceives, hfailure]

/-- However deep calls lead into one another, asking keeps to the relation. -/
theorem asksWithin_callValue (fuel : Nat) : AsksWithin R (callValue fuel) := by
  induction fuel with
  | zero => exact fun v positional _ => within_throw _
  | succ fuel ih =>
    intro v positional hlength
    unfold callValue
    refine within_bind (within_cell? v) fun cell => ?_
    split
    · exact within_report _ _ _
    · exact ih _ positional hlength
    · grind
    · rename_i b
      by_cases hset : b = .setAttribute
      · subst hset
        exact within_setAttribute_asked positional hlength
      · exact within_callBuiltin ih hset positional []
    · grind
    · grind

end

@[grind .] theorem asksWithin_call {R : Session → Session → Prop} [Frame R] : AsksWithin R call :=
  asksWithin_callValue callDepth

/-! ## Sources -/

section

variable {R : Session → Session → Prop} [SettingFrame R]

@[grind .] theorem within_setAttribute (target name v : Value) :
    Within R (setAttribute target name v) := by
  intro s
  unfold setAttribute
  simp only [on_bind, on_heap, next_ok]
  split
  · rename_i name address cell hcell
    cases hwith : cell.with s.heap name v with
    | error failure => exact refl_of R s
    | ok cell' => exact SettingFrame.sets s address cell cell' name v hcell hwith
  · exact refl_of R s
  · exact refl_of R s

@[grind ←] theorem within_callBuiltin_any {call : Caller} (h : AsksWithin R call) (b : Builtin)
    (positional : List Value) (keywords : Fields) :
    Within R (callBuiltin call b positional keywords) := by
  by_cases hset : b = .setAttribute
  · subst hset
    unfold callBuiltin runBuiltin
    grind
  · exact within_callBuiltin h hset positional keywords

@[grind .] theorem within_callValue (fuel : Nat) (v : Value) (positional : List Value)
    (keywords : Fields) : Within R (callValue fuel v positional keywords) := by
  induction fuel generalizing v with
  | zero => exact within_throw _
  | succ fuel ih =>
    have hasks : AsksWithin R (callValue fuel) := asksWithin_callValue fuel
    unfold callValue
    grind

@[grind .] theorem within_call (v : Value) (positional : List Value) (keywords : Fields) :
    Within R (call v positional keywords) := within_callValue callDepth v positional keywords

@[grind .] theorem within_callMethod (v : Value) (name : Text) (positional : List Value)
    (keywords : Fields) : Within R (callMethod v name positional keywords) := by
  unfold callMethod
  grind

@[grind .] theorem within_newFloat (x : Binary64) : Within R (newFloat x) := by
  unfold newFloat
  grind

mutual

theorem within_evaluate (scope : Variables) : (term : Term) → Within R (term.evaluate scope)
  | .null | .bool _ | .int _ | .text _ | .constant _ => within_pure _
  | .float x => within_newFloat x
  | .regex _ | .unknown _ | .callable _ _ => within_allocate_unemptying rfl
  | .list items => by
    have hitems := within_evaluateItems scope items
    unfold Term.evaluate
    grind
  | .tuple items => by
    have hitems := within_evaluateItems scope items
    unfold Term.evaluate
    grind
  | .mapping entries => by
    have hentries := within_evaluateEntries scope [] entries
    unfold Term.evaluate
    grind
  | .record fields => by
    have hfields := within_evaluateFields scope fields
    unfold Term.evaluate
    grind
  | .module name file attributes => by
    have hattributes := within_evaluateFields scope attributes
    unfold Term.evaluate
    grind
  | .variable name => within_ofExcept _
  | .attribute target name => by
    have htarget := within_evaluate scope target
    unfold Term.evaluate
    grind
  | .method target name positional keywords => by
    have htarget := within_evaluate scope target
    have hpositional := within_evaluateItems scope positional
    have hkeywords := within_evaluateFields scope keywords
    unfold Term.evaluate
    grind
  | .apply callee positional keywords => by
    have hpositional := within_evaluateItems scope positional
    have hkeywords := within_evaluateFields scope keywords
    unfold Term.evaluate
    grind
  | .triggered trigger positional keywords function => by
    have hpositional := within_evaluateItems scope positional
    have hkeywords := within_evaluateFields scope keywords
    have hfunction : Within R (allocate (.callable function true [])) :=
      within_allocate_unemptying rfl
    unfold Term.evaluate
    grind

theorem within_evaluateItems (scope : Variables) :
    (items : List Term) → Within R (evaluateItems scope items)
  | [] => within_pure []
  | term :: rest => by
    have hterm := within_evaluate scope term
    have hrest := within_evaluateItems scope rest
    unfold evaluateItems
    grind

theorem within_evaluateFields (scope : Variables) :
    (fields : List (Text × Term)) → Within R (evaluateFields scope fields)
  | [] => within_pure []
  | (name, term) :: rest => by
    have hterm := within_evaluate scope term
    have hrest := within_evaluateFields scope rest
    unfold evaluateFields
    grind

theorem within_evaluateEntries (scope : Variables) (before : Entries) :
    (entries : List (Term × Term)) → Within R (evaluateEntries scope before entries)
  | [] => within_pure before
  | (key, term) :: rest => by
    have hkey := within_evaluate scope key
    have hterm := within_evaluate scope term
    have hrest := fun before => within_evaluateEntries scope before rest
    unfold evaluateEntries
    grind

end

end

end FunctionManifest
