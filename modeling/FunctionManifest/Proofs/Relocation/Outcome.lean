import FunctionManifest.Proofs.Loading.Load
import FunctionManifest.Proofs.Relocation.Loading

/-!
# Outcomes of loads

What a load finds, and the manifest that is made of it, do not depend on where objects are kept.
-/

namespace FunctionManifest

open Eval Session

variable {ρ : Relocation} {declaring : Prop} {s s' t t' : Session}

/-! ## Outcomes -/

/-- What is found in a source: the endpoints and the required APIs with all their parts, the keys of
the handlers, and the params. -/
structure Discovery where
  endpoints : List (Text × Except Failure Text)
  requiredApis : List (Except Failure Text)
  handlers : List Text
  params : Except Failure Text

/-- A manifest as it is shown, and as it is written in each format. -/
structure WrittenManifest where
  shown : Except Failure Text
  text : OutputFormat → Except Failure Text

/-- What a load comes to. -/
structure Outcome where
  handlers : List Text
  manifest : Except Failure WrittenManifest

def Heap.discovery (heap : Heap) (collection : Collection) (params : Value) : Discovery where
  endpoints := collection.endpoints.map fun entry => (entry.1, heap.shown entry.2)
  requiredApis := collection.requiredApis.map heap.shown
  handlers := collection.handlers.map (·.1)
  params := heap.shown params

def loadDiscovery (source : Text) (config : Config) : Eval Discovery := do
  let (collection, params) ← inNewRegistry (collectSource source config)
  return (← heap).discovery collection params

def manifestOf (stack : Value) : Eval WrittenManifest := do
  let wire ← stackWire call stack
  let heap ← heap
  return ⟨heap.shown wire, renderManifest heap wire⟩

def loadOutcome (source : Text) (config : Config) : Eval Outcome := do
  let loaded ← loadStack source config
  return ⟨loaded.handlers.map (·.1), ← attempted (manifestOf loaded.stack)⟩

namespace Session

/-- What the load of a source would find. -/
def discovered (s : Session) (source : Text) (config : Config) : Except Failure Discovery :=
  ((loadDiscovery source config).on s).1

/-- What the load of a source would come to. -/
def outcome (s : Session) (source : Text) (config : Config) : Except Failure Outcome :=
  ((loadOutcome source config).on s).1

/-- The session once a source was loaded and searched. -/
def searched (s : Session) (source : Text) (config : Config) : Session :=
  ((inNewRegistry (collectSource source config)).on s).2

end Session

/-! ## In a registry of its own -/

/-- The registry of a load is the current one, whatever was before. -/
theorem Session.Moved.inside (hs : s.Moved ρ declaring s') : s.inside.Moved ρ True s'.inside :=
  { hs with
    heap := { hs.heap.allocate (.registry .empty) with }
    current := fun _ => hs.heap.allocated (.registry .empty)
    ordinary := .inl trivial
    packaged := fun a path h => by
      have := hs.packaged a path h
      exact ⟨this.1, Nat.lt_of_lt_of_le this.2 (Heap.grows_allocate _ _).size⟩
    shared := Nat.lt_of_lt_of_le hs.shared (Heap.grows_allocate _ _).size }

/-- However the collection of a source ends, the scopes are as they were. -/
theorem continues_collectSource (hs : s.Sound) (source : Text) (config : Config)
    (registry : Value) :
    s.Continues ((collectSource source config registry).on s).2 ∧
      ((collectSource source config registry).on s).2.Sound := by
  have hkept := readEntry_kept source config.entryFile s
  cases hread : (readEntry source config.entryFile).on s with
  | mk result u =>
    rw [hread] at hkept
    subst hkept
    cases result with
    | error failure =>
      rw [on_collectSource_of_error hread]
      exact ⟨.refl u, hs⟩
    | ok entry =>
      have hasked := related_collectSource (R := Leaves) registry hread
      obtain ⟨hcontinues, hsound, -⟩ := on_loadEntry hs entry rfl
      exact ⟨hcontinues.trans hasked.toContinues, hasked.sound hsound⟩

theorem on_inNewRegistry {α : Type} (action : Value → Eval α) (s : Session) :
    (inNewRegistry action).on s =
      (((action (.ref s.heap.cells.size)).on s.inside).1,
        ((action (.ref s.heap.cells.size)).on s.inside).2.left) := by
  have hregistry : (enterRegistry none).on s = (.ok (.ref s.heap.cells.size), s.inside) := rfl
  have hleave : ∀ u : Session, leaveRegistry.on u = (.ok (), u.left) := fun _ => rfl
  simp only [inNewRegistry, on_bind, on_ensuring, hregistry, hleave, next_ok, on_ofExcept]

/-- What was collected is the same at the new addresses, whatever declarations went to before. -/
theorem mirrorsFrom_collectSource (hs : s.Moved ρ declaring s') (source : Text) (config : Config) :
    MirrorsFrom ρ True s.inside s'.inside (collectSource source config (.ref s.heap.cells.size))
      (collectSource source (moved ρ config) (.ref s'.heap.cells.size)) := by
  have hregistry : Value.ref s'.heap.cells.size = moved ρ (.ref s.heap.cells.size) :=
    hs.heap.allocated (.registry .empty)
  rw [hregistry]
  exact mirrors_collectSource source config _ _ _ hs.inside

/-- Leaving the scope of a load, declarations go again where they went before. -/
theorem mirrorsFrom_inNewRegistry {later : Prop} (hs : s.Moved ρ declaring s') (hsound : s.Sound)
    (hsound' : s'.Sound) (hlater : later → declaring) (source : Text) (config : Config)
    (hordinary : later ∨ (s.searched source config).heap.IsOrdinary) :
    MirrorsFrom ρ later s s' (inNewRegistry (collectSource source config))
      (inNewRegistry (collectSource source (moved ρ config))) := by
  obtain ⟨hresult, hleft⟩ := mirrorsFrom_collectSource hs source config
  have hscopes :=
    (continues_collectSource hsound.inside source config (.ref s.heap.cells.size)).1.scopes
  have hscopes' := (continues_collectSource hsound'.inside source (moved ρ config)
    (.ref s'.heap.cells.size)).1.scopes
  unfold MirrorsFrom
  unfold searched at hordinary
  rw [on_inNewRegistry] at hordinary
  rw [on_inNewRegistry, on_inNewRegistry]
  refine ⟨hresult,
    { hleft with heap := { hleft.heap with }, current := fun h => ?_, ordinary := hordinary }⟩
  have hleave : s.inside.left.heap.scopes = s.heap.scopes := rfl
  have hleave' : s'.inside.left.heap.scopes = s'.heap.scopes := rfl
  simp only [left] at hleave hleave' ⊢
  rw [hscopes, hscopes', hleave, hleave']
  exact hs.current (hlater h)

instance : Plain Discovery where
instance : Plain WrittenManifest where
instance : Plain Outcome where

theorem moved_keys (fields : Fields) : (moved ρ fields).map (·.1) = fields.map (·.1) := by
  simp [moved_list, Function.comp_def]

theorem Heap.moved_discovery {heap heap' : Heap} [Heap.Moved ρ heap heap'] (collection : Collection)
    (params : Value) :
    heap'.discovery (moved ρ collection) (moved ρ params) = heap.discovery collection params := by
  obtain ⟨endpoints, apis, handlers, stop⟩ := collection
  rw [moved_collection]
  unfold Heap.discovery
  rw [moved_keys, Heap.moved_shown]
  simp [moved_list, Function.comp_def, Heap.moved_shown]

theorem on_described (action : Eval (Collection × Value)) (s : Session) :
    ((do
      let (collection, params) ← action
      return (← heap).discovery collection params : Eval Discovery).on s).1 =
      (action.on s).1.map fun found => (action.on s).2.heap.discovery found.1 found.2 := by
  rw [on_bind]
  cases action.on s with
  | mk result t => cases result <;> rfl

theorem Session.discovered_eq (s : Session) (source : Text) (config : Config) :
    s.discovered source config =
      ((collectSource source config (.ref s.heap.cells.size)).on s.inside).1.map fun found =>
        ((collectSource source config (.ref s.heap.cells.size)).on s.inside).2.left.heap.discovery
          found.1 found.2 := by
  rw [discovered, loadDiscovery, on_described, on_inNewRegistry]

/-- What is found in a source is the same, whatever declarations went to before. -/
theorem Session.Moved.discovered (hs : s.Moved ρ declaring s') (source : Text) (config : Config) :
    s'.discovered source (moved ρ config) = s.discovered source config := by
  obtain ⟨hresult, hleft⟩ := mirrorsFrom_collectSource hs source config
  rw [discovered_eq, discovered_eq, hresult]
  have : Heap.Moved ρ
      ((collectSource source config (.ref s.heap.cells.size)).on s.inside).2.left.heap
      ((collectSource source (moved ρ config) (.ref s'.heap.cells.size)).on
        s'.inside).2.left.heap := { hleft.heap with }
  cases ((collectSource source config (.ref s.heap.cells.size)).on s.inside).1 with
  | error failure => rw [moved_error, Except.map, Except.map]
  | ok found => exact congrArg Except.ok (Heap.moved_discovery found.1 found.2)

theorem mirrors_manifestOf (stack : Value) :
    Mirrors ρ declaring (manifestOf stack) (manifestOf (moved ρ stack)) := by
  refine mirrors_bind (mirrors_stackWire mirrors_asked stack) fun wire =>
    mirrors_heap_bind fun heap heap' _ => mirrors_pure ?_
  rw [Heap.moved_shown, moved_plain]
  congr 1
  exact funext fun format => moved_renderManifest wire format

theorem mirrorsFrom_loadStack {later : Prop} (hs : s.Moved ρ declaring s') (hsound : s.Sound)
    (hsound' : s'.Sound) (hlater : later → declaring) (source : Text) (config : Config)
    (hordinary : later ∨ (s.searched source config).heap.IsOrdinary) :
    MirrorsFrom ρ later s s' (loadStack source config) (loadStack source (moved ρ config)) :=
  mirrorsFrom_bind (mirrorsFrom_inNewRegistry hs hsound hsound' hlater source config hordinary)
    fun collected t t' _ ht => mirrors_finishStack source config collected.1 collected.2 t t' ht

/-- A load comes to the same. Either declarations go to the same registry after it, or nothing asks
for that. -/
theorem Session.Moved.outcome {later : Prop} (hs : s.Moved ρ declaring s') (hsound : s.Sound)
    (hsound' : s'.Sound) (hlater : later → declaring) (source : Text) (config : Config)
    (hordinary : later ∨ (s.searched source config).heap.IsOrdinary) :
    s'.outcome source (moved ρ config) = s.outcome source config := by
  have houtcome : MirrorsFrom ρ later s s' (loadOutcome source config)
      (loadOutcome source (moved ρ config)) := by
    refine mirrorsFrom_bind (mirrorsFrom_loadStack hs hsound hsound' hlater source config hordinary)
      fun loaded t t' _ ht => ?_
    refine mirrors_map (mirrors_attempted (mirrors_manifestOf loaded.stack)) (fun manifest => ?_) t
      t' ht
    rw [moved_plain, moved_plainResult]
    exact congrArg (Outcome.mk · manifest) (moved_keys loaded.handlers)
  exact houtcome.1.trans (moved_plainResult _)

end FunctionManifest
