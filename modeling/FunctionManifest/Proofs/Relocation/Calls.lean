import FunctionManifest.Proofs.Relocation.Methods
import FunctionManifest.Language.Call

/-!
# Calls

Each callable mirrors itself: by induction on the depth of calls, since what is called may ask other
objects. Few of them ask for the current registry, and none of these is a method of an ordinary
object.
-/

namespace FunctionManifest

open Eval

variable {ρ : Relocation} {declaring : Prop}

/-! ## Triggers -/

section

variable (arguments : Arguments)

theorem moved_newTrigger (maker : TriggerName) (payload : Payload) (requiredApis : Value) :
    newTrigger maker (moved ρ payload) (moved ρ arguments) (moved ρ requiredApis) =
      moved ρ (newTrigger maker payload arguments requiredApis) := by
  unfold newTrigger
  rw [Arguments.moved_get]
  rfl

theorem moved_retriesConfig :
    (retriesOf (moved ρ arguments)).config = moved ρ (retriesOf arguments).config := by
  simp [retriesOf, Retries.config]

end

theorem moved_eventArguments (type : String) (fields extra : Fields) :
    eventArguments type (moved ρ fields) (moved ρ extra) =
      moved ρ (eventArguments type fields extra) := by
  have hfind : (moved ρ extra).find? (fun option => Assoc.contains (moved ρ fields) option.1) =
      moved ρ (extra.find? fun option => Assoc.contains fields option.1) :=
    moved_find? extra fun option => Assoc.moved_contains fields option.1
  unfold eventArguments
  rw [hfind]
  cases extra.find? fun option => Assoc.contains fields option.1 with
  | some option => rfl
  | none =>
    change TriggerName.event.signature.bind (moved ρ [.text type])
        (moved ρ fields ++ moved ρ extra) = _
    rw [← moved_append]
    exact Signature.moved_bind _ _ _

theorem mirrors_filterField (name : String) (v : Value) :
    Mirrors ρ declaring (filterField name v) (filterField name (moved ρ v)) :=
  mirrors_map (mirrors_intern (by simp)) fun v => (moved_field _ v).symm

theorem mirrors_decorateOr (trigger : Trigger) (invoke : Value) :
    Mirrors ρ declaring (decorateOr trigger invoke)
      (decorateOr (moved ρ trigger) (moved ρ invoke)) := by
  have hattach : Mirrors ρ declaring _ _ := mirrors_attach trigger invoke
  cases invoke with
  | null => exact mirrors_allocate rfl rfl
  | _ => exact hattach

section

variable {call call' : Caller} (h : Caller.Mirrors ρ declaring call call')

include h

theorem mirrors_eventTrigger (arguments : Arguments) :
    Mirrors ρ declaring (eventTrigger call arguments) (eventTrigger call' (moved ρ arguments)) := by
  have hfinish (exact patterns : Entries) : Mirrors ρ declaring
      (do
        let exact ← intern (.mapping exact)
        let patterns ← intern (.mapping patterns)
        let retry := (arguments.get? "retry").getD (.bool false)
        let payload := Payload.event (arguments.get "event_type") exact patterns
          (arguments.get "channel") (arguments.get "event_region") retry
        return newTrigger .event payload arguments
          ((arguments.get? "required_apis").getD Heap.emptyTuple))
      (do
        let exact ← intern (.mapping (moved ρ exact))
        let patterns ← intern (.mapping (moved ρ patterns))
        let retry := ((moved ρ arguments).get? "retry").getD (.bool false)
        let payload := Payload.event ((moved ρ arguments).get "event_type") exact patterns
          ((moved ρ arguments).get "channel") ((moved ρ arguments).get "event_region") retry
        return newTrigger .event payload (moved ρ arguments)
          (((moved ρ arguments).get? "required_apis").getD Heap.emptyTuple)) := by
    refine mirrors_bind (mirrors_intern (moved_valueMapping _).symm) fun exact => ?_
    refine mirrors_bind (mirrors_intern (moved_valueMapping _).symm) fun patterns => mirrors_pure ?_
    simp only [Arguments.moved_get]
    rw [← moved_newTrigger, arguments.moved_getD _ (moved_bool _),
      arguments.moved_getD _ Heap.moved_emptyTuple]
    rfl
  unfold eventTrigger
  refine mirrors_heap_bind fun heap heap' _ => ?_
  rw [Arguments.moved_get arguments "filters", Heap.moved_isTruthy]
  split
  · exact mirrors_bind (mirrors_fromEntries h _ fun heap heap' _ entries =>
      congrArg Except.ok (moved_splitFilters entries)) fun filters =>
        hfinish filters.1 filters.2
  · exact mirrors_bind (mirrors_pure rfl) fun filters => hfinish filters.1 filters.2

theorem mirrors_callTrigger (name : TriggerName) (arguments : Arguments) :
    Mirrors ρ declaring (callTrigger call name arguments)
      (callTrigger call' name (moved ρ arguments)) := by
  have hretry : field "retry" (((moved ρ arguments).get? "retry").getD (.bool false)) =
      moved ρ (field "retry" ((arguments.get? "retry").getD (.bool false))) := by
    rw [moved_field, arguments.moved_getD _ (moved_bool _)]
  have htriggered (type : String) (fields : Fields) : Mirrors ρ declaring
      (do
        let arguments ← MonadExcept.ofExcept (eventArguments type fields arguments.extra)
        allocate (.trigger (← eventTrigger call arguments) []))
      (do
        let arguments ← MonadExcept.ofExcept
            (eventArguments type (moved ρ fields) (moved ρ arguments).extra)
        allocate (.trigger (← eventTrigger call' arguments) [])) :=
    mirrors_bind (mirrors_ofExcept (moved_eventArguments type fields arguments.extra))
      fun arguments =>
      mirrors_bind (mirrors_eventTrigger h arguments) fun trigger => mirrors_allocate rfl rfl
  unfold callTrigger
  simp only [Arguments.moved_get, hretry]
  cases name with
  | request =>
    have htrigger := moved_newTrigger (ρ := ρ) arguments .request
      (.request (arguments.get "invoker")) Heap.emptyTuple
    rw [Heap.moved_emptyTuple] at htrigger
    have : Mirrors ρ declaring _ _ := mirrors_decorateOr
      (newTrigger .request (.request (arguments.get "invoker")) arguments Heap.emptyTuple)
      (arguments.get "func")
    rw [← htrigger] at this
    exact this
  | call =>
    have htrigger := moved_newTrigger (ρ := ρ) arguments .call .call Heap.emptyTuple
    rw [Heap.moved_emptyTuple] at htrigger
    have : Mirrors ρ declaring _ _ := mirrors_decorateOr
      (newTrigger .call .call arguments Heap.emptyTuple) (arguments.get "func")
    rw [← htrigger] at this
    exact this
  | schedule =>
    refine mirrors_bind (mirrors_intern (moved_retriesConfig arguments)) fun retries => ?_
    refine mirrors_bind (mirrors_intern (by simp)) fun apis => mirrors_allocate ?_ rfl
    rw [moved_cell_trigger, ← moved_newTrigger]
    rfl
  | event =>
    exact mirrors_bind (mirrors_eventTrigger h arguments) fun trigger => mirrors_allocate rfl rfl
  | message =>
    refine mirrors_bind (mirrors_filterField "topic" _) fun filters => ?_
    refine mirrors_bind (mirrors_intern (by simp)) fun apis => ?_
    rw [← moved_field, ← moved_append, ← moved_append]
    exact htriggered _ _
  | storage =>
    refine mirrors_bind (mirrors_filterField "bucket" _) fun filters => ?_
    rw [← moved_append]
    exact htriggered _ _

end

/-! ## Objects -/

instance : Plain TriggerKind where

theorem mirrors_mappingOr (v : Option Value) :
    Mirrors ρ declaring (mappingOr v) (mappingOr (moved ρ v)) :=
  mirrors_intern (by cases v <;> simp)

theorem mirrors_listOr (v : Option Value) : Mirrors ρ declaring (listOr v) (listOr (moved ρ v)) :=
  mirrors_intern (by cases v <;> simp)

section

variable (arguments : Arguments)

theorem mirrors_newEndpoint :
    Mirrors ρ declaring (newEndpoint arguments) (newEndpoint (moved ρ arguments)) := by
  unfold newEndpoint
  simp only [Arguments.moved_get, Arguments.moved_get?]
  refine mirrors_bind (mirrors_reading fun heap heap' _ =>
    (TriggerKind.moved_ofValue _).trans (moved_plainResult _).symm)
      fun kind => ?_
  refine mirrors_bind (mirrors_mappingOr _) fun trigger =>
    mirrors_bind (mirrors_mappingOr _) fun labels => ?_
  refine mirrors_bind (mirrors_mappingOr _) fun options => mirrors_allocate ?_ rfl
  rw [← Arguments.moved_get?, arguments.moved_getD _ (moved_text _)]
  rfl

theorem mirrors_newStack :
    Mirrors ρ declaring (newStack arguments) (newStack (moved ρ arguments)) := by
  unfold newStack
  simp only [Arguments.moved_get, Arguments.moved_get?]
  refine mirrors_bind (mirrors_listOr _) fun apis => mirrors_bind (mirrors_listOr _) fun params =>
    mirrors_allocate ?_ rfl
  rw [← Arguments.moved_get?, arguments.moved_getD _ (moved_text _)]
  rfl

theorem moved_configOf : configOf (moved ρ arguments) = moved ρ (configOf arguments) := by
  unfold configOf
  rw [arguments.moved_getD "spec_version" (v := Config.default.specVersion) rfl,
    arguments.moved_getD "include_params" (v := Config.default.includeParams) rfl,
    arguments.moved_getD "entry_file" (v := Config.default.entryFile) rfl,
    arguments.moved_getD "platform" (v := Config.default.platform) rfl]
  rfl

theorem mirrors_newParam (kind : ParamKind) :
    Mirrors ρ declaring (newParam kind arguments) (newParam kind (moved ρ arguments)) := by
  unfold newParam
  simp only [Arguments.moved_get]
  exact mirrors_allocate rfl rfl

theorem mirrors_newSecret (json : Bool) :
    Mirrors ρ declaring (newSecret json arguments) (newSecret json (moved ρ arguments)) := by
  unfold newSecret
  rw [Arguments.moved_get]
  exact mirrors_allocate rfl rfl

end

theorem mirrors_newApis (items : List Value) :
    Mirrors ρ declaring (newApis items) (newApis (moved ρ items)) :=
  mirrors_bind (mirrors_reading fun _ _ _ => Heap.moved_mergedApis items) fun merged =>
    mirrors_bind (mirrors_mapM merged mirrors_allocateApi) fun apis =>
      mirrors_intern (moved_valueList apis).symm

theorem moved_choicesOf (labelled : Option Entries) (values : List Value) :
    choicesOf (moved ρ labelled) (moved ρ values) = moved ρ (choicesOf labelled values) := by
  cases labelled with
  | none => exact moved_map values fun _ => rfl
  | some entries => exact moved_map entries fun _ => rfl

theorem mirrors_newSelect (many : Bool) (values : List Value) :
    Mirrors ρ declaring (newSelect many values) (newSelect many (moved ρ values)) := by
  refine mirrors_heap_bind fun heap heap' _ => ?_
  rcases values with _ | ⟨v, _ | ⟨w, rest⟩⟩
  · exact mirrors_allocatePrompt many []
  · have hchoices := moved_choicesOf (ρ := ρ) (heap.entries? v) [v]
    have hentries : heap'.entries? (moved ρ v) = moved ρ (heap.entries? v) := Heap.moved_entries? v
    rw [← hentries] at hchoices
    have : Mirrors ρ declaring _ _ := mirrors_allocatePrompt many
        (choicesOf (heap.entries? v) [v])
    rw [← hchoices] at this
    exact this
  · have : Mirrors ρ declaring _ _ := mirrors_allocatePrompt many
        (choicesOf none (v :: w :: rest))
    rw [← moved_choicesOf] at this
    exact this

/-! ## Operations on values -/

theorem mirrors_isInstanceOf (v names : Value) :
    Mirrors ρ declaring (isInstanceOf v names) (isInstanceOf (moved ρ v) (moved ρ names)) := by
  refine mirrors_bind (mirrors_reading fun _ _ _ => Heap.moved_items names) fun names => ?_
  refine mirrors_heap_bind fun heap heap' _ => mirrors_pure ?_
  have htypes : (((heap'.cell? (moved ρ v)).map Cell.typesOf).getD []) =
      ((heap.cell? v).map Cell.typesOf).getD [] := by
    rw [Heap.moved_cell?]
    cases heap.cell? v <;> simp
  have hname (name : Value) (type : Text) : (moved ρ name == Value.text type) =
      (name == Value.text type) :=
    Value.moved_beq_moved name (.text type)
  simp only [htypes, moved_list, List.any_map, Function.comp_def, hname, moved_bool]

theorem mirrors_lengthOf (v : Value) : Mirrors ρ declaring (lengthOf v) (lengthOf (moved ρ v)) := by
  refine mirrors_heap_bind fun heap heap' _ => ?_
  rw [Heap.moved_size?, Heap.moved_type]
  cases heap.size? v with
  | none => exact mirrors_throw _
  | some size => exact mirrors_pure rfl

theorem mirrors_nameOfModule (path isPackage : Value) :
    Mirrors ρ declaring (nameOfModule path isPackage)
      (nameOfModule (moved ρ path) (moved ρ isPackage)) := by
  have hother :
      Mirrors ρ declaring (do throw (.notFileName (shortType ((← heap).type path))) : Eval Value)
      (do throw (.notFileName (shortType ((← heap).type (moved ρ path))))) :=
    mirrors_heap_bind fun heap _ _ => mirrors_failed (by rw [Heap.moved_type])
  cases path with
  | text path =>
    refine mirrors_heap_bind fun heap heap' _ => mirrors_pure ?_
    rw [Heap.moved_isTruthy, moved_text]
  | _ => exact hother

theorem mirrors_isMultiSegment (segment : Value) :
    Mirrors ρ declaring (isMultiSegment segment) (isMultiSegment (moved ρ segment)) := by
  refine mirrors_bind (mirrors_cell? segment) fun cell => ?_
  cases cell with
  | none => exact mirrors_pure rfl
  | some cell =>
    cases cell with
    | segment sort content =>
      cases sort with
      | literal =>
        exact mirrors_map (mirrors_reading fun _ _ _ =>
          (Heap.moved_same content (.text "**")).trans (moved_plainResult _).symm) fun _ => rfl
      | _ => exact mirrors_pure rfl
    | _ => exact mirrors_pure rfl

section

variable {call call' : Caller} (h : Caller.Mirrors ρ True call call')

include h

theorem mirrors_makeFunction (arguments : Arguments) :
    Mirrors ρ True (makeFunction call arguments) (makeFunction call' (moved ρ arguments)) := by
  unfold makeFunction
  simp only [Arguments.moved_get]
  refine mirrors_bind (mirrors_reading fun _ _ _ => Heap.moved_dictionary _) fun trigger => ?_
  refine mirrors_bind (mirrors_reading fun heap heap' _ => moved_labelEntries _)
    fun labels => ?_
  refine mirrors_bind (mirrors_fromEntries h _ fun heap heap' _ options => ?_) fun endpoint => ?_
  · rw [← moved_valueMapping, ← moved_valueMapping]
    exact Endpoint.moved_make _ _ _ _ _
  · refine mirrors_bind (mirrors_allocateEndpoint endpoint) fun endpoint => mirrors_allocate ?_ rfl
    rw [arguments.moved_getD _ Heap.moved_emptyTuple]
    rfl

theorem mirrors_groupOf? (groups : Value) :
    Mirrors ρ True (groupOf? call groups) (groupOf? call' (moved ρ groups)) := by
  have hshown (group : Value) : Mirrors ρ True (do return some (← reading (·.shown group)))
      (do return some (← reading (·.shown (moved ρ group)))) :=
    mirrors_map (α := Text) (mirrors_reading fun _ _ _ =>
      (Heap.moved_shown group).trans (moved_plainResult _).symm) fun _ => rfl
  have hgroup : Mirrors ρ True (callAttribute call groups "rstrip" [.text "-"] >>= fun group =>
      some <$> reading (·.shown group))
        (callAttribute call' (moved ρ groups) "rstrip" [.text "-"] >>= fun group =>
      some <$> reading (·.shown group)) :=
    mirrors_bind (mirrors_callAttribute h groups "rstrip" (by decide) [.text "-"]) hshown
  refine mirrors_heap_bind fun heap heap' _ => ?_
  rw [Heap.moved_isTruthy]
  split
  · cases groups with
    | text groups => exact hshown (.text (Text.trimEnd (· = '-') groups))
    | _ => exact hgroup
  · exact mirrors_pure rfl

theorem mirrors_newFailure (c : FailureClass) (arguments : Arguments) :
    Mirrors ρ True (newFailure call c arguments) (newFailure call' c (moved ρ arguments)) := by
  have hplain : Mirrors ρ True (do allocate (.failure c.kind (← intern (.tuple arguments.rest)) []))
      (do allocate (.failure c.kind (← intern (.tuple (moved ρ arguments).rest)) [])) :=
    mirrors_bind (mirrors_intern (moved_valueTuple _).symm) fun made => mirrors_allocate rfl rfl
  cases c with
  | exportName =>
    unfold newFailure
    simp only [Arguments.moved_get]
    rw [arguments.moved_getD _ (moved_text _)]
    refine mirrors_bind (mirrors_groupOf? h _) fun group => ?_
    refine mirrors_bind (α := Text) (mirrors_reading fun _ _ _ =>
      (Heap.moved_shown _).trans (moved_plainResult _).symm) fun shown => ?_
    rw [moved_plainOption]
    exact mirrors_bind (mirrors_intern rfl) fun made => mirrors_allocateGiven (by simp)
  | _ => exact hplain

theorem mirrors_declare (declared target : Value) :
    Mirrors ρ True (declare call declared target)
      (declare call' (moved ρ declared) (moved ρ target)) := by
  have hregister (target : Value) : Mirrors ρ True (callAttribute call target "register" [declared])
      (callAttribute call' (moved ρ target) "register" [moved ρ declared]) :=
    mirrors_callAttribute h target "register" (by decide) [declared]
  have hgiven := hregister target
  cases target with
  | null => exact mirrors_bind (mirrors_currentRegistry) hregister
  | _ => exact hgiven

/-! ## Calling by name -/

omit h in
theorem mirrors_shown (v : Value) :
    Mirrors ρ declaring (reading (·.shown v)) (reading (·.shown (moved ρ v))) :=
  mirrors_reading fun _ _ _ => (Heap.moved_shown v).trans (moved_plainResult _).symm

theorem mirrors_runBuiltin (b : Builtin) (arguments : Arguments) :
    Mirrors ρ True (runBuiltin call b arguments) (runBuiltin call' b (moved ρ arguments)) := by
  unfold runBuiltin
  simp only [Arguments.moved_get]
  cases b with
  | declareParam kind =>
    exact mirrors_bind (mirrors_newParam arguments kind) fun p => mirrors_declare h p _
  | declareSecret json =>
    exact mirrors_bind (mirrors_newSecret arguments json) fun secret => mirrors_declare h secret _
  | select many => exact mirrors_newSelect many arguments.rest
  | currentRegistry => exact mirrors_currentRegistry
  | clearParams =>
    exact mirrors_bind (mirrors_currentRegistry) fun registry =>
      mirrors_callAttribute h registry "clear" (by decide) []
  | renderOperand =>
    refine mirrors_heap_bind fun heap heap' _ => ?_
    rw [Heap.moved_operand]
    exact mirrors_operand (mirrors_asking h) _
  | splitPath =>
    exact mirrors_bind (mirrors_partsOf h _) fun parts =>
      mirrors_intern (moved_valueList parts).symm
  | parseSegment =>
    refine mirrors_bind (mirrors_matchable _) fun part => ?_
    rw [moved_plain]
    cases Segment.ofPart part <;> exact mirrors_allocate rfl rfl
  | isMultiSegment => exact mirrors_isMultiSegment _
  | splitFilters =>
    refine mirrors_bind (mirrors_fromEntries h _ fun heap heap' _ entries =>
      congrArg Except.ok (moved_splitFilters entries)) fun filters => ?_
    obtain ⟨exact, patterns⟩ := filters
    exact mirrors_intern (by simp)
  | buildOptions =>
    refine mirrors_bind (mirrors_fromEntries h _ fun heap heap' _ entries =>
      moved_buildOptions entries) fun options => ?_
    exact mirrors_intern (by simp)
  | makeFunction => exact mirrors_makeFunction h arguments
  | mergeRequiredApis =>
    exact mirrors_bind (mirrors_reading fun _ _ _ => Heap.moved_items _) fun items =>
      mirrors_newApis items
  | toWireValue => exact mirrors_wireOf h _
  | endpointToWire => exact mirrors_bind (mirrors_endpointWire h _) fun wire => mirrors_intern rfl
  | stackToWire => exact mirrors_stackWire h _
  | renderManifest =>
    refine mirrors_map (α := Text) (mirrors_reading fun heap heap' _ => ?_) fun text => rfl
    rw [OutputFormat.moved_ofValue, moved_renderManifest]
    exact (moved_plainResult _).symm
  | trigger name => exact mirrors_callTrigger h name arguments
  | newParam kind => exact mirrors_newParam arguments kind
  | newSecret json => exact mirrors_newSecret arguments json
  | newRegistry => exact mirrors_allocate rfl rfl
  | newExpression => exact mirrors_allocate rfl rfl
  | newParamExpression => exact mirrors_newReference _
  | newCompareExpression => exact mirrors_newComparison _ _ _
  | newIfElseExpression => exact mirrors_newChoice _ arguments
  | newTextInput => exact mirrors_allocate rfl rfl
  | newSelectOption => exact mirrors_allocate rfl rfl
  | newSelectInput many => exact mirrors_allocate rfl rfl
  | newResourceInput => exact mirrors_allocate rfl rfl
  | newPattern | compilePattern => exact mirrors_newPattern h _
  | newSegment sort => exact mirrors_allocate rfl rfl
  | newRequiredApi => exact mirrors_allocateApi ⟨_, _⟩
  | newEndpoint => exact mirrors_newEndpoint arguments
  | newStack => exact mirrors_newStack arguments
  | newReset => exact mirrors_allocate rfl rfl
  | newFunction =>
    rw [arguments.moved_getD _ Heap.moved_emptyTuple]
    exact mirrors_allocate rfl rfl
  | newConfig => exact mirrors_allocate (congrArg Cell.config (moved_configOf arguments)) rfl
  | newFailure c => exact mirrors_newFailure h c arguments
  | moduleName => exact mirrors_nameOfModule _ _
  | exported =>
    have hother :
        Mirrors ρ True (do throw (.notAttributeName ((← heap).type (arguments.get "name"))) :
        Eval Value)
        (do throw (.notAttributeName ((← heap).type (moved ρ (arguments.get "name"))))) :=
      mirrors_heap_bind fun heap _ _ => mirrors_failed (by rw [Heap.moved_type])
    have hexported (name : Text) :=
      mirrors_getAttribute h (Heap.exportedModule Export.rootName) name
    simp only [Heap.moved_exportedModule] at hexported
    cases hname : arguments.get "name" with
    | text name => exact hexported name
    | _ =>
      rw [hname] at hother
      exact hother
  | exportedNames =>
    have hexported := mirrors_getAttribute h (Heap.exportedModule Export.rootName) "__all__"
    rw [Heap.moved_exportedModule] at hexported
    exact hexported
  | shown => exact mirrors_map (α := Text) (mirrors_shown _) fun _ => rfl
  | printed => exact mirrors_map (mirrors_printed h _) fun _ => rfl
  | length => exact mirrors_lengthOf _
  | toList =>
    exact mirrors_bind (mirrors_reading fun _ _ _ => Heap.moved_items _) fun items =>
      mirrors_intern (moved_valueList items).symm
  | setAttribute => exact mirrors_bind (mirrors_setAttribute _ _ _) fun _ => mirrors_pure rfl
  | equal =>
    exact mirrors_map (mirrors_reading fun _ _ _ =>
      (Heap.moved_same _ _).trans (moved_plainResult _).symm) fun _ => rfl
  | sameHash =>
    refine mirrors_heap_bind fun heap heap' _ => ?_
    rw [Heap.moved_hash, Heap.moved_hash]
    refine mirrors_bind (mirrors_ofExcept rfl) fun hash =>
      mirrors_map (mirrors_ofExcept rfl) fun other => ?_
    rw [Value.moved_beq_moved, moved_bool]
  | identical =>
    refine mirrors_heap_bind fun heap heap' _ => mirrors_pure ?_
    rw [Heap.moved_isOne, moved_bool]
  | contains =>
    exact mirrors_map (mirrors_reading fun _ _ _ =>
      (Heap.moved_contains _ _).trans (moved_plainResult _).symm) fun _ => rfl
  | isInstance => exact mirrors_isInstanceOf _ _

theorem mirrors_callBuiltin (b : Builtin) (positional : List Value) (keywords : Fields) :
    Mirrors ρ True (callBuiltin call b positional keywords)
      (callBuiltin call' b (moved ρ positional) (moved ρ keywords)) := by
  have hreceived : (if b.receivesObject then [Value.null] else []) ++ moved ρ positional =
      moved ρ ((if b.receivesObject then [Value.null] else []) ++ positional) := by
    rw [moved_append]
    split <;> rfl
  unfold callBuiltin
  simp only [hreceived, Signature.moved_bind]
  exact mirrors_bind (mirrors_ofExcept rfl) fun arguments => mirrors_runBuiltin h b arguments

end

/-! ## Calling values -/

theorem mirrors_callMethodOf {call call' : Caller} (h : Caller.Mirrors ρ declaring call call')
    (m : Method) (self : Option Value) (positional : List Value) (keywords : Fields) :
    Mirrors ρ declaring
      (do
        let arguments ← MonadExcept.ofExcept (m.signature.bind (self.toList ++ positional) keywords)
        runMethod call m arguments)
      (do
        let arguments ← MonadExcept.ofExcept
            (m.signature.bind ((moved ρ self).toList ++ moved ρ positional) (moved ρ keywords))
        runMethod call' m arguments) := by
  have hself : (moved ρ self).toList ++ moved ρ positional =
      moved ρ (self.toList ++ positional) := by
    cases self <;> simp
  refine mirrors_bind (mirrors_ofExcept ?_) fun arguments => mirrors_runMethod h m arguments
  rw [hself]
  exact Signature.moved_bind _ _ _

theorem mirrors_callFurther {fuel : Nat}
    (h : Caller.Mirrors ρ True (callValue fuel) (callValue fuel))
    (hcalls : ∀ v positional keywords, Mirrors ρ True (callValue fuel v positional keywords)
      (callValue fuel (moved ρ v) (moved ρ positional) (moved ρ keywords)))
    (v : Value) (positional : List Value) (keywords : Fields) :
    Mirrors ρ True (callValue (fuel + 1) v positional keywords)
      (callValue (fuel + 1) (moved ρ v) (moved ρ positional) (moved ρ keywords)) := by
  have hother : Mirrors ρ True (do throw (.notCallable ((← heap).type v)) : Eval Value)
      (do throw (.notCallable ((← heap).type (moved ρ v)))) :=
    mirrors_heap_bind fun heap _ _ => mirrors_failed (by rw [Heap.moved_type])
  refine mirrors_bind (mirrors_cell? v) fun cell => ?_
  cases cell with
  | none => exact hother
  | some cell =>
    cases cell with
    | callable label => exact mirrors_intern (by simp)
    | function f => exact hcalls f.invoke positional keywords
    | trigger t =>
      refine mirrors_bind (mirrors_ofExcept (Signature.moved_bind _ _ _)) fun arguments => ?_
      rw [Arguments.moved_get]
      exact mirrors_attach t _
    | builtin b => exact mirrors_callBuiltin h b positional keywords
    | method m self => exact mirrors_callMethodOf h m self positional keywords
    | _ => exact hother

/-- An ordinary object is asked by a method of its own. -/
theorem on_ready?_of_ordinary {s t : Session} (hs : s.heap.IsOrdinary) {v found : Value}
    {name : String} (hname : name ∈ askedNames)
    (h : (ready? v (Text.ofString name)).on s = (.ok (some found), t)) :
    ∃ m self, t.heap.cell? found = some (.method m self) := by
  simp only [ready?, on_bind, on_heap, next_ok, hs.stored? hname] at h
  cases hmethod : (s.heap.cell? v).bind (·.method? v (Text.ofString name)) with
  | none =>
    rw [hmethod] at h
    cases h
  | some method =>
    obtain ⟨m, self, rfl⟩ := Cell.bind_method? hmethod
    rw [hmethod] at h
    cases h
    exact ⟨m, self, Heap.cell?_allocate_new _ _⟩

theorem mirrors_callAttributeFurther {fuel : Nat}
    (h : ∀ declaring, Caller.Mirrors ρ declaring (callValue fuel) (callValue fuel))
    (hcalls : ∀ v positional keywords, Mirrors ρ True (callValue (fuel + 1) v positional keywords)
      (callValue (fuel + 1) (moved ρ v) (moved ρ positional) (moved ρ keywords))) :
    Caller.Mirrors ρ declaring (callValue (fuel + 1)) (callValue (fuel + 1)) := by
  intro v name hname positional s s' hs
  refine mirrorsFrom_bind (mirrors_ready? v _ s s' hs) fun found t t' hready ht => ?_
  cases found with
  | none => exact mirrors_bind (mirrors_missing v _) (fun failure => mirrors_throw _) t t' ht
  | some found =>
    rcases hs.ordinary with hdeclaring | hordinary
    · obtain rfl : declaring = True := eq_true hdeclaring
      exact hcalls found positional [] t t' ht
    · -- The object is asked by its own method, which does not ask for the current registry.
      obtain ⟨m, self, hmethod⟩ := on_ready?_of_ordinary hordinary hname hready
      refine mirrorsFrom_bind (mirrors_cell? found t t' ht) fun cell u u' hcell hu => ?_
      rw [on_cell?, hmethod, Prod.mk.injEq, Except.ok.injEq] at hcell
      obtain ⟨rfl, rfl⟩ := hcell
      exact mirrors_callMethodOf (h declaring) m self positional [] t u' hu

theorem mirrors_callValue (fuel : Nat) :
    (∀ declaring, Caller.Mirrors ρ declaring (callValue fuel) (callValue fuel)) ∧
      ∀ v positional keywords, Mirrors ρ True (callValue fuel v positional keywords)
        (callValue fuel (moved ρ v) (moved ρ positional) (moved ρ keywords)) := by
  induction fuel with
  | zero =>
    have hcalls : ∀ (declaring : Prop) v positional keywords,
        Mirrors ρ declaring (callValue 0 v positional keywords)
        (callValue 0 (moved ρ v) (moved ρ positional) (moved ρ keywords)) :=
          fun _ _ _ _ => mirrors_throw _
    refine ⟨fun declaring v name hname positional => ?_, hcalls True⟩
    refine mirrors_bind (mirrors_ready? v _) fun found => ?_
    cases found with
    | none => exact mirrors_bind (mirrors_missing v _) fun failure => mirrors_throw _
    | some found => exact hcalls declaring found positional []
  | succ fuel ih =>
    have hcalls := mirrors_callFurther (ih.1 True) ih.2
    exact ⟨fun declaring => mirrors_callAttributeFurther ih.1 hcalls, hcalls⟩

/-- Ordinary objects can be asked whatever declarations go to. -/
theorem mirrors_asked : Caller.Mirrors ρ declaring call call :=
  (mirrors_callValue callDepth).1 declaring

theorem mirrors_call (v : Value) (positional : List Value) (keywords : Fields) :
    Mirrors ρ True (call v positional keywords)
      (call (moved ρ v) (moved ρ positional) (moved ρ keywords)) :=
  (mirrors_callValue callDepth).2 v positional keywords

theorem mirrors_callMethod (v : Value) (name : Text) (positional : List Value) (keywords : Fields) :
    Mirrors ρ True (callMethod v name positional keywords)
      (callMethod (moved ρ v) name (moved ρ positional) (moved ρ keywords)) := by
  unfold callMethod
  split
  · exact mirrors_call v positional keywords
  · exact mirrors_bind (mirrors_getAttribute mirrors_asked v name) fun v =>
      mirrors_call v positional keywords

end FunctionManifest
