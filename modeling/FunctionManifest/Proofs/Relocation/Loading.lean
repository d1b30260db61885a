import FunctionManifest.Proofs.Relocation.Discovering

/-!
# Loads

A source is loaded, searched and described alike. Only the collection runs in a registry of its own:
what follows it goes to the registry of the process.
-/

namespace FunctionManifest

open Eval

variable {ρ : Relocation} {declaring : Prop}

/-! ## Entries -/

instance : Plain EntryFile where
instance : Plain Entry where
instance : Plain Statement where

theorem mirrors_entryFileOf (v : Value) :
    Mirrors ρ declaring (entryFileOf v) (entryFileOf (moved ρ v)) := by
  intro s s' hs
  have := hs.heap
  have hshown := (mirrors_printed mirrors_asked v s s' hs).1
  have hother : EntryFile.other (s'.heap.type (moved ρ v)) ((printed call (moved ρ v)).on s').1 =
      .other (s.heap.type v) ((printed call v).on s).1 := by
    rw [hshown, moved_plainResult, Heap.moved_type]
  cases v with
  | text path => exact ⟨rfl, hs⟩
  | _ => exact ⟨congrArg Except.ok hother, hs⟩

theorem mirrors_readEntry (source : Text) (entryFile : Value) :
    Mirrors ρ declaring (readEntry source entryFile) (readEntry source (moved ρ entryFile)) := by
  refine mirrors_get_bind fun s s' hs => ?_
  rw [hs.project]
  refine mirrors_bind (mirrors_ofExcept (moved_fixedResult moved_location _).symm) fun target => ?_
  refine mirrors_bind (mirrors_entryFileOf entryFile) fun file => ?_
  rw [moved_location]
  have hfound : ∀ found : Location × Bool, moved ρ found = found :=
    fun found => congrArg (·, found.2) (moved_location found.1)
  refine mirrors_bind (mirrors_ofExcept (moved_fixedResult hfound _).symm) fun found => ?_
  rw [hfound]
  refine mirrors_bind (mirrors_ofExcept (moved_fixedResult moved_plainList _).symm)
    fun statements => ?_
  rw [moved_plainList]
  exact mirrors_map (mirrors_ofExcept (moved_plainResult _).symm) fun _ => rfl

section

variable {before before' : Session} (hbefore : before.Moved ρ True before')

include hbefore

theorem moved_isAdded {s s' : Session} (hs : s.Moved ρ True s') (entry : Entry)
    (module : Text × Nat) :
    isAdded before' s' entry (moved ρ module) = isAdded before s entry module := by
  have := hs.heap
  obtain ⟨name, a⟩ := module
  unfold isAdded
  simp only [moved_pair, moved_plain]
  rw [hbefore.loaded, Assoc.moved_contains, hs.project, moved_address, ← moved_ref,
    moved_comesFrom]

theorem mirrors_forgetAdded (entry : Entry) :
    Mirrors ρ True (forgetAdded before entry) (forgetAdded before' entry) := by
  intro s s' hs
  refine mirrorsFrom_get_bind ?_
  have hleft : (s'.loaded.filterM fun module => do return !(← isAdded before' s' entry module)) =
      moved ρ (s.loaded.filterM fun module => do return !(← isAdded before s entry module)) := by
    rw [hs.loaded]
    exact moved_filterM s.loaded fun module => by rw [moved_isAdded hbefore hs entry module]
  rw [hleft]
  cases s.loaded.filterM fun module => do return !(← isAdded before s entry module) with
  | error failure => exact ⟨rfl, hs⟩
  | ok left => exact ⟨rfl, { hs with heap := hs.heap, loaded := rfl }⟩

theorem mirrors_cleanUp (entry : Entry) :
    Mirrors ρ True (cleanUp before entry) (cleanUp before' entry) := by
  have herase : Mirrors ρ True
      (modify fun session =>
        { session with searchPath := session.searchPath.erase entry.directory } : Eval Unit)
      (modify fun session =>
        { session with searchPath := session.searchPath.erase entry.directory }) :=
    fun s s' hs => ⟨rfl, { hs with
      heap := hs.heap
      searchPath := congrArg (·.erase entry.directory) hs.searchPath }⟩
  unfold cleanUp
  rw [hbefore.searchPath]
  split
  · exact mirrors_bind herase fun _ => mirrors_forgetAdded hbefore entry
  · exact mirrors_forgetAdded hbefore entry

end

theorem mirrors_announce (entry : Entry) :
    Mirrors ρ declaring (announce entry) (announce entry) := by
  refine mirrors_get_bind fun s s' hs => ?_
  rw [hs.project]
  exact mirrors_log _ _ _

theorem Session.Moved.makeWay {s s' : Session} (hs : s.Moved ρ declaring s') (entry : Entry) :
    Session.Moved ρ declaring (makeWay entry s) (makeWay entry s') := by
  refine { hs with heap := hs.heap, loaded := ?_, searchPath := ?_ }
  · change s'.loaded.filter _ = moved ρ (s.loaded.filter _)
    rw [hs.loaded]
    exact moved_filter s.loaded fun module => rfl
  · simp only [FunctionManifest.makeWay, hs.searchPath]

theorem mirrors_startEntry (entry : Entry) :
    Mirrors ρ True (startEntry entry) (startEntry entry) := by
  have hway : Mirrors ρ True (modify (makeWay entry) : Eval Unit) (modify (makeWay entry)) :=
    fun s s' hs => ⟨rfl, hs.makeWay entry⟩
  refine mirrors_get_bind fun s s' hs => ?_
  rw [hs.project]
  refine mirrors_bind (mirrors_announce entry) fun _ => ?_
  have hadd := mirrors_addModule (ρ := ρ) entry.name (if entry.isPackage then entry.name else [])
    (some entry.file) entry.path?
  have hstart : Mirrors ρ True
      (do
        modify (makeWay entry)
        if hasEnding entry.file.name ".so" then throw (.unloadable (s.project.written entry.file))
        addModule entry.name (if entry.isPackage then entry.name else []) (some entry.file)
          entry.path?)
      (do
        modify (makeWay entry)
        if hasEnding entry.file.name ".so" then throw (.unloadable (s.project.written entry.file))
        addModule entry.name (if entry.isPackage then entry.name else []) (some entry.file)
          entry.path?) :=
    mirrors_bind hway fun _ =>
      mirrors_ite (mirrors_bind (α := Unit) (mirrors_throw _) fun _ => hadd) hadd
  exact mirrors_ite (mirrors_bind (α := Unit) (mirrors_throw _) fun _ => hstart) hstart

theorem mirrors_runEntry (entry : Entry) (a : Nat) :
    Mirrors ρ True (runEntry entry a) (runEntry entry (ρ.address a)) := by
  have hrun : Mirrors ρ True (do runStatements (importModule (← importDepth)) a entry.statements)
      (do runStatements (importModule (← importDepth)) (ρ.address a) entry.statements) := by
    refine mirrors_get_bind fun s s' hs => ?_
    rw [hs.project]
    exact mirrors_runStatements (mirrors_importModule _) a entry.statements
  refine mirrors_bind (mirrors_ofExcept (moved_plainResult _).symm) fun _ => ?_
  cases entry.body with
  | bytes => exact hrun
  | statements => exact mirrors_bind (mirrors_runBegins _ _) fun _ => hrun

theorem mirrors_loadEntry (entry : Entry) :
    Mirrors ρ True (loadEntry entry) (loadEntry entry) := by
  refine mirrors_get_bind fun before before' hbefore => ?_
  refine mirrors_bind (mirrors_startEntry entry) fun a => ?_
  refine mirrors_bind ?_ fun _ => mirrors_pure rfl
  exact mirrors_tryCatch
    (mirrors_ensuring (mirrors_runEntry entry a) (mirrors_cleanUp hbefore entry))
    fun failure => mirrors_throw _

theorem mirrors_loadModule (source : Text) (entryFile : Value) :
    Mirrors ρ True (loadModule source entryFile) (loadModule source (moved ρ entryFile)) :=
  mirrors_bind (mirrors_readEntry source entryFile) fun entry => mirrors_loadEntry entry

/-! ## Stacks -/

instance LoadedStack.relocatable : Relocatable LoadedStack where
  moved ρ loaded := ⟨moved ρ loaded.stack, moved ρ loaded.handlers⟩

theorem mirrors_collector : collector.Mirrors ρ declaring collector where
  deployed endpoint entryPoint :=
    mirrors_attempted (mirrors_callAttribute mirrors_asked endpoint _ (by decide) [.text entryPoint])
  requiredApis apis := mirrors_attempted (mirrors_reading fun _ _ _ => Heap.moved_items apis)
  note _ := mirrors_log _ _ _

theorem mirrors_collectFrom (groups : Text) (v : Value) :
    Mirrors ρ declaring (collectFrom groups v) (collectFrom groups (moved ρ v)) := by
  refine mirrors_get_bind fun s s' hs => ?_
  have := hs.heap
  rw [hs.project, Heap.moved_discover]
  exact mirrors_collect (mirrors_collector) _

theorem mirrors_fillPlatform (platform endpoint : Value) :
    Mirrors ρ declaring (fillPlatform platform endpoint)
      (fillPlatform (moved ρ platform) (moved ρ endpoint)) := by
  refine mirrors_bind (mirrors_getAttribute mirrors_asked endpoint _) fun found => ?_
  cases found with
  | null => exact mirrors_callAttribute mirrors_asked endpoint _ (by decide) [platform]
  | _ => exact mirrors_pure rfl

theorem mirrors_stackOf (collection : Collection) (config : Config) (params : Value) :
    Mirrors ρ declaring (stackOf collection config params)
      (stackOf (moved ρ collection) (moved ρ config) (moved ρ params)) := by
  refine mirrors_bind (mirrors_mapM collection.endpoints fun entry => ?_) fun endpoints => ?_
  · exact mirrors_map (mirrors_fillPlatform config.platform entry.2) fun endpoint => rfl
  · refine mirrors_bind (mirrors_intern (moved_named endpoints).symm) fun endpoints => ?_
    exact mirrors_bind (mirrors_newApis collection.requiredApis) fun apis => mirrors_allocate rfl rfl

theorem mirrors_collectModule (config : Config) (registry : Value) (a : Nat) :
    Mirrors ρ declaring (collectModule config registry a)
      (collectModule (moved ρ config) (moved ρ registry) (ρ.address a)) := by
  refine mirrors_bind (mirrors_collectFrom [] (.ref a)) fun collection => ?_
  have hparams : Mirrors ρ declaring
      (do
        let params ←
          if (← heap).isTruthy config.includeParams then callAttribute call registry "specs" []
          else intern (.list [])
        return (collection, params))
      (do
        let params ←
          if (← heap).isTruthy (moved ρ config).includeParams then
            callAttribute call (moved ρ registry) "specs" []
          else intern (.list [])
        return (moved ρ collection, params)) := by
    refine mirrors_heap_bind fun heap heap' _ => ?_
    rw [Config.relocatable_moved_includeParams, Heap.moved_isTruthy]
    split
    · exact mirrors_bind (mirrors_callAttribute mirrors_asked registry _ (by decide) []) fun params =>
        mirrors_pure rfl
    · exact mirrors_bind (mirrors_intern rfl) fun params => mirrors_pure rfl
  obtain ⟨endpoints, apis, handlers, stop⟩ := collection
  cases stop with
  | some failure => exact mirrors_throw _
  | none => exact hparams

theorem mirrors_collectSource (source : Text) (config : Config) (registry : Value) :
    Mirrors ρ True (collectSource source config registry)
      (collectSource source (moved ρ config) (moved ρ registry)) :=
  mirrors_bind (mirrors_loadModule source config.entryFile) fun a =>
    mirrors_collectModule config registry a

theorem mirrors_finishStack (source : Text) (config : Config) (collection : Collection)
    (params : Value) :
    Mirrors ρ declaring (finishStack source config collection params)
      (finishStack source (moved ρ config) (moved ρ collection) (moved ρ params)) := by
  refine mirrors_bind (mirrors_stackOf collection config params) fun stack => ?_
  refine mirrors_heap_bind fun heap heap' _ => ?_
  have hlength : (moved ρ collection).endpoints.length = collection.endpoints.length :=
    length_moved _
  rw [Heap.moved_size?, hlength]
  exact mirrors_bind (mirrors_log _ _ _) fun _ => mirrors_pure rfl

end FunctionManifest
