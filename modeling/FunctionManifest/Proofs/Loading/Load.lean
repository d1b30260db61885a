import FunctionManifest.Proofs.Loading.CleanUp
import FunctionManifest.Proofs.Value.Equality

/-!
# What a load leaves

However a load ends, the process is as it was before: the search path, the modules of others, the
registry that declarations go to, and what is in it. There are two exceptions. A library that cannot
be loaded leaves its directory on the search path, and a module whose file is no text keeps all that
was loaded with it from being forgotten.
-/

namespace FunctionManifest

open Eval Session

variable {s t : Session} {source : Text} {config : Config}

/-! ## Collecting -/

section

variable {R : Session → Session → Prop} [Frame R]

/-- Whatever a collector does keeps to the relation. -/
structure Collector.Within (R : Session → Session → Prop) (collector : Collector Eval) : Prop where
  deployed : ∀ endpoint entryPoint, Eval.Within R (collector.deployed endpoint entryPoint)
  requiredApis : ∀ apis, Eval.Within R (collector.requiredApis apis)
  note : ∀ key, Eval.Within R (collector.note key)

attribute [grind ←] Collector.Within.deployed Collector.Within.requiredApis Collector.Within.note

@[grind ←] theorem within_add {collector : Collector Eval} (h : collector.Within R)
    (before : Collection) (found : Found) : Within R (before.add collector found) := by
  unfold Collection.add
  grind

@[grind ←] theorem within_addAll {collector : Collector Eval} (h : collector.Within R)
    (before : Collection) (found : List Found) : Within R (before.addAll collector found) := by
  induction found generalizing before with
  | nil => exact within_pure before
  | cons first rest ih =>
    unfold Collection.addAll
    grind

theorem within_collector : collector.Within R where
  deployed := fun endpoint entryPoint => by unfold collector; grind
  requiredApis := fun apis => by unfold collector; grind
  note := fun key => by unfold collector; grind

@[grind .] theorem within_collectFrom (groups : Text) (v : Value) :
    Within R (collectFrom groups v) := by
  have hall := within_addAll (within_collector (R := R))
  unfold collectFrom Walk.collect
  grind

@[grind .] theorem within_fillPlatform (platform endpoint : Value) :
    Within R (fillPlatform platform endpoint) := by
  unfold fillPlatform
  grind

@[grind .] theorem within_stackOf (collection : Collection) (config : Config) (params : Value) :
    Within R (stackOf collection config params) := by
  unfold stackOf
  grind

@[grind .] theorem within_collectModule (config : Config) (registry : Value) (address : Nat) :
    Within R (collectModule config registry address) := by
  unfold collectModule
  grind

@[grind .] theorem within_finishStack (source : Text) (config : Config) (collection : Collection)
    (params : Value) : Within R (finishStack source config collection params) := by
  unfold finishStack
  grind

end

/-! ## Inside the registry of a load -/

/-- Reading the entry file of a source changes nothing. -/
theorem readEntry_kept (source : Text) (entryFile : Value) (s : Session) :
    ((readEntry source entryFile).on s).2 = s := by
  have hfile : Within Eq (entryFileOf entryFile) := fun s => by cases entryFile <;> rfl
  have hread : Within Eq (readEntry source entryFile) := by
    unfold readEntry
    grind
  exact (hread s).symm

/-- A source whose entry file cannot be read is not loaded. -/
theorem on_collectSource_of_error {failure : Failure} {registry : Value}
    (h : (readEntry source config.entryFile).on s = (.error failure, s)) :
    (collectSource source config registry).on s = (.error failure, s) := by
  simp [collectSource, loadModule, h]

/-- After its entry was loaded, a source is only asked. -/
theorem related_collectSource {R : Session → Session → Prop} [Frame R] {entry : Entry}
    (registry : Value) (h : (readEntry source config.entryFile).on s = (.ok entry, s)) :
    R ((loadEntry entry).on s).2 ((collectSource source config registry).on s).2 := by
  simp only [collectSource, loadModule, on_bind, h, next_ok]
  cases (loadEntry entry).on s with
  | mk result t =>
    cases result with
    | ok address => exact within_collectModule config registry address t
    | error failure => exact refl_of R t

/-- What a load is done in. -/
def Session.inside (s : Session) : Session := ((enterRegistry none).on s).2

theorem extends_inside {address : Nat} {cell : Cell} (h : s.heap.cells[address]? = some cell) :
    s.inside.heap.cells[address]? = some cell := getElem?_allocate _ h

theorem Session.Sound.inside (hs : s.Sound) : s.inside.Sound where
  loaded := fun module hmodule =>
    let ⟨attributes, hattributes⟩ := hs.loaded module hmodule
    ⟨attributes, extends_inside hattributes⟩
  own := fun name address hown =>
    let ⟨attributes, hattributes⟩ := hs.own name address hown
    ⟨attributes, extends_inside hattributes⟩

/-- The session once the scope of a load is left. -/
def Session.left (s : Session) : Session :=
  { s with heap := { s.heap with scopes := s.heap.scopes.leave } }

/-- After the scope is left, what was collected is only asked. -/
theorem related_loadStack {R : Session → Session → Prop} [Frame R] (source : Text)
    (config : Config) (s : Session)
    (h : ((collectSource source config (.ref s.heap.cells.size)).on s.inside).2 = t) :
    R t.left ((loadStack source config).on s).2 := by
  have hregistry : (enterRegistry none).on s = (.ok (.ref s.heap.cells.size), s.inside) := rfl
  have hleave : ∀ u : Session, leaveRegistry.on u = (.ok (), u.left) := fun _ => rfl
  simp only [loadStack, inNewRegistry, on_bind, on_ensuring, hregistry, hleave, next_ok,
    on_ofExcept, h]
  cases ((collectSource source config (.ref s.heap.cells.size)).on s.inside).1 with
  | ok collected => exact within_finishStack source config collected.1 collected.2 t.left
  | error failure => exact refl_of R t.left

/-! ## Whole loads -/

/-- The process is as it was before the load of the entry: its imports, the current registry,
and what is in it. -/
structure Session.Restored (entry : Entry) (s t : Session) : Prop
    extends RestoresImports entry s t where
  scopes : t.heap.scopes = s.heap.scopes
  contents : ∀ address r, s.heap.scopes.current = .ref address → s.HasRegistry address r →
    t.HasRegistry address r

/-- Declarations went to the registry that was current, and this was not the one from before. -/
def Session.DeclaresApart (s t : Session) : Prop :=
  ∀ change ∈ t.changes.drop s.changes.length,
    .ref change.address = change.current ∧ change.current ≠ s.heap.scopes.current

theorem Session.Notes.contents (h : s.Notes t) (hdeclares : s.DeclaresApart t) {address : Nat}
    {r : Registry Value} (hcurrent : s.heap.scopes.current = .ref address)
    (hr : s.HasRegistry address r) : t.HasRegistry address r := by
  obtain ⟨changes, hchanges, hkept⟩ := h
  refine hkept address r hr fun change hchange heq => ?_
  obtain ⟨hgoes, hother⟩ := hdeclares change (by simpa [hchanges] using hchange)
  exact hother (by rw [← hgoes, heq, hcurrent])

theorem restored_iff_restoresImports {entry : Entry} (hscopes : t.heap.scopes = s.heap.scopes)
    (hnotes : s.Notes t) (hdeclares : s.DeclaresApart t) :
    s.Restored entry t ↔ s.RestoresImports entry t :=
  ⟨(·.toRestoresImports), fun h => ⟨h, hscopes, fun _ _ => hnotes.contents hdeclares⟩⟩

/-- What holds around the scope of a load, of what continued in it. -/
theorem restoresImports_around (entry : Entry) {u : Session} (ht : t.Sound)
    (hcontinues : s.inside.Continues t) (hleaves : t.left.Leaves u) :
    u.heap.scopes = s.heap.scopes ∧ s.Notes u ∧
      (s.RestoresImports entry u ↔ s.inside.RestoresImports entry t) := by
  refine ⟨?_, ?_, ?_⟩
  · rw [hleaves.scopes, left, hcontinues.scopes]
    rfl
  · have hinside : s.Notes s.inside := .of_kept rfl fun _ _ hr => extends_inside hr
    have hleft : t.Notes t.left := .of_kept rfl fun _ _ hr => hr
    exact ((hinside.trans hcontinues.notes).trans hleft).trans hleaves.notes
  · have hsame : s.RestoresImports entry t ↔ s.inside.RestoresImports entry t :=
      ⟨fun h => ⟨h.searchPath, h.kept, h.forgotten⟩, fun h => ⟨h.searchPath, h.kept, h.forgotten⟩⟩
    rw [← hsame]
    exact restoresImports_congr ht hleaves.project hleaves.searchPath hleaves.loaded
      hleaves.attributes

instance (before s : Session) (entry : Entry) : Decidable (entry.TellsAll before s) :=
  decidable_of_iff ((s.loaded.all fun module => (isAdded before s entry module).isOk) = true) <| by
    rw [Entry.tellsAll_iff, List.all_eq_true]
    refine forall₂_congr fun module _ => ?_
    cases isAdded before s entry module <;> simp [Except.isOk, Except.toBool]

instance (s : Session) (entry : Entry) : Decidable (entry.LeavesSearchPath s) :=
  inferInstanceAs (Decidable (_ ∧ _))

instance (s t : Session) : Decidable (s.DeclaresApart t) :=
  inferInstanceAs (Decidable (∀ change ∈ _, _ ∧ _))

def declaration (name : Text) : Statement :=
  .assign name (.apply (.declareParam .string) [.text name] [])

def projectOf (files : List (Location × List Statement)) : Project :=
  { home := ["work"], label := "work", base := ["work"]
    entries := files.map fun file => (file.1, .file (.statements false file.2)) }

/-- An entry beside a module that it imports. Both declare a param. -/
def siblings : Session :=
  .fresh (projectOf
    [(["main.py"], [.importModule "helper" none, declaration "FIRST"]),
      (["helper.py"], [declaration "SECOND"])]) []

/-- A library, which no load can run. -/
def withLibrary : Session := .fresh (projectOf [(["foo.so"], [])]) []

end FunctionManifest
