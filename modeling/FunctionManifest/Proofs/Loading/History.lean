import FunctionManifest.Proofs.Relocation.Fresh

/-!
# What came before a load

A load in a process in which other things were done before finds what it finds in a fresh process,
if no module and no place to look for modules is left of them, and nothing that every source shares
was changed. The objects that were made before are still there, so that all addresses differ: the
same history, done in a process with one more registry in it, leads from the one to the other.
-/

namespace FunctionManifest

open Eval Session

variable {ρ : Relocation} {project : Project} {environment : Environment} {s s' : Session}

/-! ## Histories -/

/-- What can be done in a process between two loads. -/
inductive Deed where
  | load (source : Text) (config : Config)
  /-- A declaration, or anything else that is written outside all sources. -/
  | evaluate (term : Term)
  /-- Edits the files. -/
  | edit (project : Project)

namespace Deed

def done (s : Session) : Deed → Session
  | load source config => ((loadStack source config).on s).2
  | evaluate term => ((term.evaluate (globals [])).on s).2
  | edit project => { s with project }

end Deed

/-- The session after a history. -/
def Session.after (s : Session) (history : List Deed) : Session := history.foldl Deed.done s

/-- What is the same between the deeds of a history: loaded modules are modules, what every source
shares is apart from the rest, no file is running, and no scope is entered. -/
structure Session.Idle (s : Session) (environment : Environment) : Prop extends s.Sound where
  apart : s.Apart
  environment : s.environment = environment
  starting : s.starting = []
  scopes : s.heap.scopes = ⟨Heap.defaultRegistry, []⟩

namespace Session.Idle

theorem loadStack (hs : s.Idle environment) (source : Text) (config : Config) :
    ((loadStack source config).on s).2.Idle environment := by
  obtain ⟨hcontinues, hsound⟩ :=
    continues_collectSource hs.toSound.inside source config (.ref s.heap.cells.size)
  have hleaves := related_loadStack (R := Leaves) source config s rfl
  refine ⟨hleaves.sound ⟨hsound.loaded, hsound.own⟩, apart_loadStack hs.apart source config,
    ?_, ?_, ?_⟩
  · exact (hleaves.environment.trans hcontinues.environment).trans hs.environment
  · exact (hleaves.starting.trans hcontinues.starting).trans hs.starting
  · rw [hleaves.scopes, left, hcontinues.scopes]
    exact hs.scopes

theorem evaluate (hs : s.Idle environment) (term : Term) :
    ((term.evaluate (globals [])).on s).2.Idle environment := by
  have hevolves : s.Evolves ((term.evaluate (globals [])).on s).2 :=
    within_evaluate (globals []) term s
  have hapart : KeepsApart [] s ((term.evaluate (globals [])).on s).2 :=
    within_evaluate (globals []) term s
  refine ⟨hevolves.sound hs.toSound, hapart hs.apart nofun, ?_, ?_, ?_⟩
  · exact hevolves.environment.trans hs.environment
  · exact hevolves.starting.trans hs.starting
  · exact hevolves.scopes.trans hs.scopes

theorem done (hs : s.Idle environment) (deed : Deed) : (deed.done s).Idle environment := by
  cases deed with
  | load source config => exact hs.loadStack source config
  | evaluate term => exact hs.evaluate term
  | edit project => exact { hs with loaded := hs.loaded, own := hs.own, apart := { hs.apart with } }

theorem after (hs : s.Idle environment) (history : List Deed) :
    (s.after history).Idle environment := by
  induction history generalizing s with
  | nil => exact hs
  | cons deed rest ih => exact ih (hs.done deed)

end Session.Idle

theorem idle_fresh (project : Project) (environment : Environment) :
    (Session.fresh project environment).Idle environment :=
  ⟨sound_fresh project environment, apart_fresh project environment, rfl, rfl, rfl⟩

theorem idle_spared (project : Project) (environment : Environment) :
    (Session.fresh project environment).spared.Idle environment := by
  have hsound := sound_fresh project environment
  have hapart := (apart_fresh project environment).allocate (.registry .empty)
  refine ⟨⟨nofun, fun name address hown => ?_⟩, hapart, rfl, rfl, rfl⟩
  obtain ⟨attributes, hmodule⟩ := hsound.own name address hown
  exact ⟨attributes, getElem?_allocate _ hmodule⟩

/-! ## Histories elsewhere -/

instance : Relocatable Deed where
  moved ρ
    | .load source config => .load source (moved ρ config)
    | .evaluate term => .evaluate term
    | .edit project => .edit project

/-- After the same deeds the sessions are still alike. -/
theorem Session.Moved.done (h : s.Moved ρ True s') (hs : s.Idle environment)
    (hs' : s'.Idle environment) (deed : Deed) :
    (deed.done s).Moved ρ True ((moved ρ deed).done s') := by
  cases deed with
  | load source config =>
    exact (mirrorsFrom_loadStack h hs.toSound hs'.toSound (fun _ => trivial) source config
      (.inl trivial)).2
  | evaluate term => exact (mirrors_evaluate (moved_globals []) term s s' h).2
  | edit project => exact { h with heap := h.heap, project := rfl }

theorem Session.Moved.after (h : s.Moved ρ True s') (hs : s.Idle environment)
    (hs' : s'.Idle environment) (history : List Deed) :
    (s.after history).Moved ρ True (s'.after (moved ρ history)) := by
  induction history generalizing s s' with
  | nil => exact h
  | cons deed rest ih => exact ih (h.done hs hs' deed) (hs.done deed) (hs'.done (moved ρ deed))

/-! ## Loads after a history -/

/-- No object of a process is among the settings, so they are the same in every process. -/
def Config.IsPortable (config : Config) : Prop := ∀ ρ : Relocation, moved ρ config = config

/-- No module is loaded, no directory is on the search path, and no attribute was set of what every
source shares. -/
structure Session.IsClean (s : Session) : Prop where
  loaded : s.loaded = []
  searchPath : s.searchPath = []
  untouched : ∀ setting ∈ s.settings, Heap.firstNative < setting.1

/-- What every source shares is as it was, but for the registry outside every scope. -/
theorem Session.IsClean.shared (hclean : s.IsClean) (hs : s.Apart) {a : Nat}
    (hle : a ≤ Heap.firstNative) (hother : a ≠ 1) :
    s.heap.cells[a]? = Heap.initial.cells[a]? := by
  refine hs.shared a hle hother fun setting hsetting heq => ?_
  have := hclean.untouched setting hsetting
  omega

/-- A clean session in which nothing was declared outside the scopes of loads. -/
theorem Session.IsClean.likeFresh (hclean : s.IsClean) (hs : s.Idle environment) {s' : Session}
    (h : s.Moved ρ True s') (hempty : s.heap.cells[1]? = some (.registry .empty)) :
    s.LikeFresh 1 where
  loaded := hclean.loaded
  starting := hs.starting
  searchPath := hclean.searchPath
  shared _ := hclean.shared hs.apart
  place := .inl rfl
  empty := hempty
  packaged a path hpath := by
    have hfirst : 1 < Heap.firstNative := by decide
    obtain ⟨hlt, hsize⟩ := h.packaged a path hpath
    exact ⟨hlt, hsize, by omega⟩

/-- Where the spare registry of a fresh session is. -/
def spareRegistry : Nat := Heap.firstNative + 1

theorem address_of_shared {a : Nat} (h : a ≤ Heap.firstNative) :
    (likeFresh_spared project environment).relocation.address a = a := by
  simp only [LikeFresh.relocation]
  split_ifs <;> omega

theorem size_spared :
    (Session.fresh project environment).spared.heap.cells.size = Heap.firstNative + 2 := by
  simp [spared, Session.fresh, Heap.allocate, Heap.size_initial]

theorem address_of_new {a : Nat} (h : Heap.firstNative < a) :
    (likeFresh_spared project environment).relocation.address a = a + 1 := by
  have hfirst : 1 < Heap.firstNative := by decide
  simp only [LikeFresh.relocation, size_spared]
  split_ifs <;> omega

theorem address_ne_spare (a : Nat) :
    (likeFresh_spared project environment).relocation.address a ≠ spareRegistry := by
  rcases Nat.lt_or_ge Heap.firstNative a with h | h
  · rw [address_of_new h, spareRegistry]
    omega
  · rw [address_of_shared h, spareRegistry]
    omega

/-- A clean session is like a fresh one even if something was declared outside the scopes of loads:
the spare registry stands for the one in which it was. -/
theorem Session.IsClean.likeFresh_spared (hclean : s.IsClean) (hs : s.Idle environment)
    (hs' : s'.Idle environment)
    (h : s.Moved (likeFresh_spared project environment).relocation True s') :
    s'.LikeFresh spareRegistry where
  loaded := by rw [h.loaded, hclean.loaded, moved_nil]
  starting := hs'.starting
  searchPath := h.searchPath.trans hclean.searchPath
  shared a hle hother := by
    have hcell := h.heap.cells a
    rwa [address_of_shared hle, hclean.shared hs.apart hle hother, Heap.moved_initial] at hcell
  place := .inr (Nat.lt_succ_self _)
  empty := by
    rw [h.heap.rest spareRegistry address_ne_spare]
    simp [LikeFresh.relocation, spared, Session.fresh, Heap.allocate, spareRegistry,
      ← Heap.size_initial]
  packaged b path hpath := by
    have hsize := h.heap.size 0
    rw [address_of_new (by have := h.shared; omega)] at hsize
    have hplace (a : Nat)
        (ha : (FunctionManifest.likeFresh_spared project environment).relocation.address a = b) :
        Heap.firstNative < a ∧ a < s.heap.cells.size := by
      rw [← ha, h.packages] at hpath
      exact h.packaged a path hpath
    rcases Nat.lt_trichotomy b spareRegistry with hlt | heq | hgt
    · rw [spareRegistry] at hlt
      have := hplace b (address_of_shared (by omega))
      omega
    · rw [heq, h.restPath _ address_ne_spare] at hpath
      cases hpath
    · rw [spareRegistry] at hgt ⊢
      have := hplace (b - 1) (by rw [address_of_new (by omega)]; omega)
      omega

theorem Session.Apart.searched (hs : s.Apart) (source : Text) (config : Config) :
    (s.searched source config).Apart := by
  rw [Session.searched, on_inNewRegistry]
  exact { apart_collectSource hs.inside source config (.ref s.heap.cells.size) with }

instance : DecidablePred Cell.IsOrdinary := fun _ =>
  inferInstanceAs (Decidable (∀ name ∈ askedNames, _ = _))

/-- A param is declared outside, a source with a module beside it is loaded, and its file is
written anew. -/
def rewritten : List Deed :=
  [.evaluate (.apply (.declareParam .string) [.text "OUTER"] []), .load "." .default,
    .edit (projectOf [(["main.py"], [declaration "OTHER"])])]

/-- An entry that imports from a package without a file. -/
def withPart : Session :=
  let project := projectOf
    [(["main.py"], [.importFrom "ns" [("sub", "sub")]]), (["ns", "sub.py"], [declaration "NAME"])]
  .fresh { project with entries := (["ns"], .directory) :: project.entries } []

/-- The manifest that a load would come to, as it is shown. -/
def Session.manifest? (s : Session) (source : Text) (config : Config) : Option Text :=
  (s.outcome source config).toOption.bind (·.manifest.toOption.bind (·.shown.toOption))

end FunctionManifest
