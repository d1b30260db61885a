import FunctionManifest.Loading.Load
import FunctionManifest.Proofs.Loading.Import

/-!
# What a load undoes

A load begins by forgetting what was loaded under its name, and ends by forgetting what it added. It
can only do so if every module that was added says where it comes from.
-/

namespace FunctionManifest

open Eval Session

variable {before s t : Session} {entry : Entry}

/-! ## Where modules come from -/

theorem stored?_module_congr {address : Nat} {attributes : Fields}
    (hs : s.HasModule address attributes) (ht : t.HasModule address attributes) (name : Text) :
    t.heap.stored? (.ref address) name = s.heap.stored? (.ref address) name := by
  rw [HasModule] at hs ht
  simp only [Heap.stored?, Heap.cell?, hs, ht]

/-- Only a file that is named by a text can lie in a directory. -/
theorem comesFrom_eq_true_iff {heap : Heap} {project : Project} {directory : Location} {v : Value} :
    comesFrom heap project directory v = .ok true ↔
      ∃ file, heap.stored? v "__file__" = some (.text file) ∧ file ≠ [] ∧
        isProjectFile project directory file = .ok true := by
  unfold comesFrom fileOf?
  cases hstored : heap.stored? v "__file__" with
  | none => simp [bind, Except.bind, pure, Except.pure]
  | some file =>
    cases file with
    | text file =>
      by_cases hempty : file = [] <;> simp [hempty, bind, Except.bind, pure, Except.pure]
    | _ => dsimp only; split <;> simp [bind, Except.bind, pure, Except.pure]

theorem comesFrom_module_congr {address : Nat} {attributes : Fields}
    (hs : s.HasModule address attributes) (ht : t.HasModule address attributes)
    (hproject : t.project = s.project) (directory : Location) :
    comesFrom t.heap t.project directory (.ref address) = .ok true ↔
      comesFrom s.heap s.project directory (.ref address) = .ok true := by
  simp only [comesFrom_eq_true_iff, stored?_module_congr hs ht, hproject]

/-- Of each module that the load added beside its own, it can be told whether it comes from the
directory of the entry. -/
def Entry.TellsAll (entry : Entry) (before s : Session) : Prop :=
  ∀ module ∈ s.loaded, isOwned entry.name module.1 = false →
    Assoc.contains before.loaded module.1 = false →
      ∃ isInside, comesFrom s.heap s.project entry.directory (.ref module.2) = .ok isInside

theorem Entry.tellsAll_iff :
    entry.TellsAll before s ↔
      ∀ module ∈ s.loaded, ∃ added, isAdded before s entry module = .ok added := by
  refine forall₂_congr fun module _ => ?_
  unfold isAdded
  cases isOwned entry.name module.1 with
  | true => simp
  | false =>
    cases Assoc.contains before.loaded module.1 <;> simp

/-! ## Forgetting -/

/-- What was added is forgotten, and nothing else. -/
theorem on_forgetAdded (h : entry.TellsAll before s) :
    ∃ left, (forgetAdded before entry).on s = (.ok (), { s with loaded := left }) ∧
      ∀ module, module ∈ left ↔
        module ∈ s.loaded ∧ isAdded before s entry module = .ok false := by
  rw [Entry.tellsAll_iff] at h
  let isLeft : Text × Nat → Bool := fun module =>
    (isAdded before s entry module).toOption == some false
  have hfilter : (s.loaded.filterM fun module => do
      return !(← isAdded before s entry module)) = .ok (s.loaded.filter isLeft) := by
    refine filterM_of_ok fun module hmodule => ?_
    obtain ⟨added, hadded⟩ := h module hmodule
    cases added <;> simp only [isLeft, hadded] <;> rfl
  refine ⟨s.loaded.filter isLeft, ?_, fun module => ?_⟩
  · simp only [forgetAdded, on_bind, on_get, next_ok, on_ofExcept, hfilter, on_set]
  · rw [List.mem_filter]
    refine and_congr_right fun hmodule => ?_
    obtain ⟨added, hadded⟩ := h module hmodule
    cases added <;> simp [isLeft, hadded, Except.toOption]

/-- Otherwise nothing is forgotten. -/
theorem on_forgetAdded_of_not_tellsAll (h : ¬entry.TellsAll before s) :
    ∃ failure, (forgetAdded before entry).on s = (.error failure, s) := by
  rw [Entry.tellsAll_iff] at h
  push Not at h
  obtain ⟨module, hmodule, hfails⟩ := h
  obtain ⟨failure, hfailure⟩ := filterM_of_error
    (p := fun module => do return !(← isAdded before s entry module)) ⟨module, hmodule, by
      cases hadded : isAdded before s entry module with
      | ok added => exact absurd hadded (hfails added)
      | error failure => exact nofun⟩
  exact ⟨failure, by simp only [forgetAdded, on_bind, on_get, next_ok, on_ofExcept, hfailure,
    next_error]⟩

/-! ## Beginning a load -/

theorem isOwned_self (owner : Text) : isOwned owner owner = true := by simp [isOwned]

/-- Nothing is another but what is loaded and searched, and no module is loaded that was not. -/
def Session.Forgets (s t : Session) : Prop :=
  ∃ loaded searchPath, t = { s with loaded, searchPath } ∧ ∀ module ∈ loaded, module ∈ s.loaded

instance : IsPreorder Session Forgets where
  refl s := ⟨s.loaded, s.searchPath, rfl, fun _ h => h⟩
  trans _ _ _ := by
    rintro ⟨loaded, searchPath, rfl, hloaded⟩ ⟨loaded', searchPath', rfl, hloaded'⟩
    exact ⟨loaded', searchPath', rfl, fun module hmodule => hloaded _ (hloaded' module hmodule)⟩

theorem Session.Forgets.continues (h : s.Forgets t) : s.Continues t := by
  obtain ⟨loaded, searchPath, rfl, -⟩ := h
  exact { Continues.refl s with }

theorem Session.Forgets.sound (h : s.Forgets t) (hs : s.Sound) : t.Sound := by
  obtain ⟨loaded, searchPath, rfl, hloaded⟩ := h
  exact ⟨fun module hmodule => hs.loaded module (hloaded module hmodule), hs.own⟩

theorem forgets_makeWay (entry : Entry) (s : Session) : s.Forgets (makeWay entry s) :=
  ⟨_, _, rfl, fun _ hmodule => List.mem_of_mem_filter hmodule⟩

theorem not_mem_makeWay (entry : Entry) (s : Session) :
    entry.name ∉ (makeWay entry s).loaded.map (·.1) := by
  simp [makeWay, isOwned_self]

theorem within_announce {R : Session → Session → Prop} [AskingFrame R] (entry : Entry) :
    Within R (announce entry) := by
  unfold announce
  grind

/-- A file of no kind that can be a module changes nothing, and one of a library changes nothing
further once the way is free. All others become modules. -/
theorem on_startEntry (entry : Entry) (s : Session) :
    ∃ announced, s.Asked announced ∧
      if isModuleFile entry.file.name then
        if hasEnding entry.file.name ".so" then
          ∃ failure, (startEntry entry).on s = (.error failure, makeWay entry announced)
        else ∃ address t packages, (makeWay entry announced).Asked t ∧ t.IsModule address ∧
          s.heap.cells.size ≤ address ∧
          (startEntry entry).on s =
            (.ok address, { t with loaded := Assoc.set t.loaded entry.name address, packages })
      else ∃ failure, (startEntry entry).on s = (.error failure, announced) := by
  have hsucceeds : (announce entry).Succeeds := fun s => ⟨_, _, rfl⟩
  obtain ⟨_, announced, hrun⟩ := hsucceeds s
  have hannounced : s.Asked ((announce entry).on s).2 := within_announce entry s
  rw [hrun] at hannounced
  refine ⟨announced, hannounced, ?_⟩
  simp only [startEntry, on_bind, on_get, next_ok, hrun]
  split
  · rename_i hmodule
    simp only [hmodule, Bool.not_true, Bool.false_eq_true, if_false, on_bind, on_modify,
      next_ok]
    split
    · exact ⟨_, rfl⟩
    · obtain ⟨address, t, packages, ht, hnew, hsize, hadd⟩ := on_addModule entry.name
        (if entry.isPackage then entry.name else []) (some entry.file) entry.path?
        (makeWay entry announced)
      exact ⟨address, t, packages, ht, hnew, Nat.le_trans hannounced.size_le hsize, hadd⟩
  · rename_i hmodule
    simp only [Bool.not_eq_true] at hmodule
    simp only [hmodule, Bool.not_false, if_true]
    exact ⟨_, rfl⟩

/-! ## Ending a load -/

/-- The modules and the search path are as they were, but for what has the entry's name or comes
from its directory. -/
structure Session.RestoresImports (entry : Entry) (s t : Session) : Prop where
  searchPath : t.searchPath = s.searchPath
  kept : ∀ module ∈ s.loaded, isOwned entry.name module.1 = false → module ∈ t.loaded
  forgotten : ∀ module ∈ t.loaded, module ∈ s.loaded ∨
    isOwned entry.name module.1 = false ∧
      comesFrom t.heap t.project entry.directory (.ref module.2) ≠ .ok true

/-- The session when the entry has run, before anything is undone. -/
def Entry.ran (entry : Entry) (s : Session) : Session :=
  ((do runEntry entry (← startEntry entry)).on s).2

/-- A library cannot be loaded, but by then its directory is on the search path. -/
def Entry.LeavesSearchPath (entry : Entry) (s : Session) : Prop :=
  hasEnding entry.file.name ".so" = true ∧ entry.isNew s.searchPath = true

theorem isModuleFile_of_library {name : Text} (h : hasEnding name ".so" = true) :
    isModuleFile name = true := by
  simp [isModuleFile, h]

theorem within_runEntry {R : Session → Session → Prop} (entry : Entry) (address : Nat)
    [RunningFrame address R] (himports : ∀ fuel name, Within R (importModule fuel name)) :
    Within R (runEntry entry address) := by
  have hbegins := within_runBegins (R := R) address
  have hrun : ∀ fuel statements, Within R (runStatements (importModule fuel) address statements) :=
    fun fuel => within_runStatements (himports fuel)
  unfold runEntry importDepth
  grind

/-- As long as no module was added, there is nothing to tell. -/
theorem tellsAll_of_subset (h : ∀ module ∈ t.loaded, module ∈ s.loaded) : entry.TellsAll s t :=
  fun module hmodule _ hnew => absurd (List.mem_map_of_mem (h module hmodule))
    ((Assoc.contains_eq_false_iff _ _).mp hnew)

theorem restoresImports_of_leaves (h : s.Leaves t) : s.RestoresImports entry t where
  searchPath := h.searchPath
  kept := fun module hmodule _ => by rwa [h.loaded]
  forgotten := fun module hmodule => .inl (by rwa [← h.loaded])

/-- Once the way is free, only the search path may have to be restored. -/
theorem restoresImports_makeWay_iff :
    s.RestoresImports entry (makeWay entry s) ↔ entry.isNew s.searchPath = false := by
  constructor
  · intro h
    by_contra hnew
    have hsearch := h.searchPath
    simp [makeWay, hnew] at hsearch
  · intro hnew
    refine ⟨by simp [makeWay, hnew], fun module hmodule howned => ?_, fun module hmodule => ?_⟩
    · exact List.mem_filter.mpr ⟨hmodule, by simp [howned]⟩
    · exact .inl (List.mem_of_mem_filter hmodule)

/-- What stays was there before, or comes from elsewhere. -/
theorem restoresImports_forgetAdded {ran : Session} (hway : (makeWay entry s).Evolves ran)
    {left : List (Text × Nat)}
    (hleft : ∀ module, module ∈ left ↔
      module ∈ ran.loaded ∧ isAdded s ran entry module = .ok false) :
    s.RestoresImports entry { ran with searchPath := s.searchPath, loaded := left } := by
  obtain ⟨added, hloaded, hadded⟩ := hway.adds
  refine ⟨rfl, fun module hmodule howned => ?_, fun module hmodule => ?_⟩
  · refine (hleft module).mpr ⟨?_, ?_⟩
    · rw [hloaded]
      exact List.mem_append_left _ (List.mem_filter.mpr ⟨hmodule, by simp [howned]⟩)
    · have hold := (Assoc.contains_eq_true_iff _ _).mpr (List.mem_map_of_mem hmodule)
      simp [isAdded, howned, hold]
  · obtain ⟨hran, hadds⟩ := (hleft module).mp hmodule
    have howned : isOwned entry.name module.1 = false := by
      cases howned : isOwned entry.name module.1 with
      | false => rfl
      | true => simp [isAdded, howned] at hadds
    cases hold : Assoc.contains s.loaded module.1 with
    | true =>
      left
      rw [hloaded] at hran
      rcases List.mem_append.mp hran with hran | hran
      · exact List.mem_of_mem_filter hran
      · obtain ⟨other, hother, heq⟩ := List.mem_map.mp ((Assoc.contains_eq_true_iff _ _).mp hold)
        refine absurd ?_ (hadded module hran).1
        exact List.mem_map.mpr ⟨other, List.mem_filter.mpr ⟨hother, by simp [heq, howned]⟩, heq⟩
    | false =>
      right
      simp only [isAdded, howned, Bool.false_eq_true, if_false, hold] at hadds
      exact ⟨howned, by simp [hadds]⟩

/-- Once the entry has run, everything is undone if all modules tell where they come from. -/
theorem restoresImports_cleanUp_iff {ran : Session} (hs : s.Sound)
    (hway : (makeWay entry s).Evolves ran) {address : Nat}
    (hadded : (entry.name, address) ∈ ran.loaded) (hnew : ¬s.IsModule address) :
    s.RestoresImports entry ((cleanUp s entry).on ran).2 ↔ entry.TellsAll s ran := by
  have hsearch : (cleanUp s entry).on ran =
      (forgetAdded s entry).on { ran with searchPath := s.searchPath } := by
    have hran := hway.searchPath
    cases hisNew : entry.isNew s.searchPath with
    | false =>
      simp only [makeWay, hisNew, Bool.false_eq_true, if_false] at hran
      have hsame : ran = { ran with searchPath := s.searchPath } := by rw [← hran]
      rw [← hsame, cleanUp, hisNew]
      simp only [Bool.false_eq_true, if_false]
    | true =>
      simp only [makeWay, hisNew, if_true] at hran
      simp only [cleanUp, hisNew, if_true, on_bind, on_modify, next_ok, hran,
        List.erase_cons_head]
  rw [hsearch]
  by_cases htells : entry.TellsAll s ran
  · obtain ⟨left, hrun, hleft⟩ :=
      on_forgetAdded (s := { ran with searchPath := s.searchPath }) htells
    rw [hrun]
    exact iff_of_true (restoresImports_forgetAdded hway hleft) htells
  · obtain ⟨failure, hrun⟩ :=
      on_forgetAdded_of_not_tellsAll (s := { ran with searchPath := s.searchPath }) htells
    rw [hrun]
    refine iff_of_false (fun h => ?_) htells
    rcases h.forgotten _ hadded with hold | ⟨howned, -⟩
    · exact hnew (hs.loaded _ hold)
    · rw [isOwned_self] at howned
      cases howned

theorem forgets_cleanUp (before : Session) (entry : Entry) :
    Within Forgets (cleanUp before entry) := by
  have hforget : Within Forgets (forgetAdded before entry) := by
    intro s
    by_cases htells : entry.TellsAll before s
    · obtain ⟨left, hrun, hleft⟩ := on_forgetAdded htells
      rw [hrun]
      exact ⟨left, s.searchPath, rfl, fun module hmodule => ((hleft module).mp hmodule).1⟩
    · obtain ⟨failure, hrun⟩ := on_forgetAdded_of_not_tellsAll htells
      rw [hrun]
      exact refl_of Forgets s
  unfold cleanUp
  split
  · exact within_bind (fun s => ⟨s.loaded, _, rfl, fun _ h => h⟩) fun _ => hforget
  · exact hforget

/-! ## Whole loads -/

theorem leaves_makeWay (entry : Entry) (h : s.Leaves t) :
    (makeWay entry s).Leaves (makeWay entry t) where
  toContinues := { h with }
  searchPath := by simp only [makeWay, h.searchPath]
  adds := .of_eq (by simp only [makeWay, h.loaded])
  loaded := by simp only [makeWay, h.loaded]
  attributes := h.attributes

/-- Where nothing else happened to the modules, the same is restored. -/
theorem restoresImports_congr {u : Session} (ht : t.Sound) (hproject : u.project = t.project)
    (hsearch : u.searchPath = t.searchPath) (hloaded : u.loaded = t.loaded)
    (hattributes : ∀ address attributes, t.HasModule address attributes →
      u.HasModule address attributes) :
    s.RestoresImports entry u ↔ s.RestoresImports entry t := by
  have hforgotten : ∀ module ∈ t.loaded,
      (comesFrom u.heap u.project entry.directory (.ref module.2) = .ok true ↔
        comesFrom t.heap t.project entry.directory (.ref module.2) = .ok true) := by
    intro module hmodule
    obtain ⟨attributes, hmodule⟩ := ht.loaded module hmodule
    exact comesFrom_module_congr hmodule (hattributes _ _ hmodule) hproject _
  constructor
  · intro hu
    refine ⟨hsearch ▸ hu.searchPath, hloaded ▸ hu.kept, fun module hmodule => ?_⟩
    have hleft := hu.forgotten module (hloaded ▸ hmodule)
    rwa [ne_eq, hforgotten module hmodule] at hleft
  · intro ht
    refine ⟨hsearch.trans ht.searchPath, hloaded ▸ ht.kept, fun module hmodule => ?_⟩
    rw [hloaded] at hmodule
    rw [ne_eq, hforgotten module hmodule]
    exact ht.forgotten module hmodule

theorem restoresImports_congr_leaves {u : Session} (ht : t.Sound) (h : t.Leaves u) :
    s.RestoresImports entry u ↔ s.RestoresImports entry t :=
  restoresImports_congr ht h.project h.searchPath h.loaded h.attributes

theorem on_loadEntry_of_error {failure : Failure}
    (h : (startEntry entry).on s = (.error failure, t)) :
    ((loadEntry entry).on s).2 = t ∧ entry.ran s = t := by
  simp [loadEntry, Entry.ran, h]

theorem on_loadEntry_of_ok {address : Nat} (h : (startEntry entry).on s = (.ok address, t)) :
    entry.ran s = ((runEntry entry address).on t).2 ∧
      ((loadEntry entry).on s).2 = ((cleanUp s entry).on (entry.ran s)).2 := by
  have hran : entry.ran s = ((runEntry entry address).on t).2 := by simp [Entry.ran, h]
  refine ⟨hran, ?_⟩
  simp only [loadEntry, on_bind, on_get, next_ok, h, on_tryCatch, on_ensuring, hran]
  cases hundone : (cleanUp s entry).on ((runEntry entry address).on t).2 with
  | mk undone u =>
    cases undone with
    | error failure => rfl
    | ok _ => cases hresult : ((runEntry entry address).on t).1 <;> simp

/-- The module of the entry is among those that are loaded once it has run. -/
theorem evolves_ran (hs : s.Sound) {announced started : Session} {address : Nat}
    {packages : List (Nat × PackagePath)} (hannounced : s.Leaves announced)
    (hstarted : (makeWay entry announced).Leaves started) (hmodule : started.IsModule address)
    (hstart : (startEntry entry).on s = (.ok address,
      { started with loaded := Assoc.set started.loaded entry.name address, packages })) :
    (makeWay entry s).Evolves (entry.ran s) ∧ (entry.name, address) ∈ (entry.ran s).loaded := by
  have hleaves := (leaves_makeWay entry hannounced).trans hstarted
  have hfree := not_mem_makeWay entry s
  have hadded := hleaves.toEvolves.add hmodule hleaves.loaded hfree packages
  have hsound := hadded.sound ((forgets_makeWay entry s).sound hs)
  have himports := fun fuel => within_importModule fuel [address]
  have hran := within_runEntry entry address himports _ hsound fun other hother => by
    rw [List.mem_singleton.mp hother]
    exact hmodule
  rw [← (on_loadEntry_of_ok hstart).1] at hran
  refine ⟨hadded.trans hran, ?_⟩
  obtain ⟨added, hloaded, -⟩ := hran.adds
  rw [hloaded, hleaves.loaded, Assoc.set_of_not_mem hfree]
  simp

/-- Loading an entry file undoes what it does to imports, except in two cases. -/
theorem on_loadEntry (hs : s.Sound) (entry : Entry) (ht : ((loadEntry entry).on s).2 = t) :
    s.Continues t ∧ t.Sound ∧
      (s.RestoresImports entry t ↔
        ¬entry.LeavesSearchPath s ∧ entry.TellsAll s (entry.ran s)) := by
  obtain ⟨announced, hasked, hstart⟩ := on_startEntry entry s
  have hannounced := hasked Leaves
  have hfree := forgets_makeWay entry s
  split at hstart
  · split at hstart
    · rename_i hlibrary
      obtain ⟨failure, hstart⟩ := hstart
      obtain ⟨hload, hran⟩ := on_loadEntry_of_error hstart
      have hway := leaves_makeWay entry hannounced
      have htells : entry.TellsAll s (makeWay entry announced) := tellsAll_of_subset
        fun module hmodule => List.mem_of_mem_filter (hway.loaded ▸ hmodule)
      rw [hran, ← ht, hload]
      refine ⟨hfree.continues.trans hway.toContinues, hway.sound (hfree.sound hs), ?_⟩
      rw [restoresImports_congr_leaves (hfree.sound hs) hway, restoresImports_makeWay_iff]
      simp [Entry.LeavesSearchPath, hlibrary, htells]
    · rename_i hlibrary
      obtain ⟨address, started, packages, hstarted, hmodule, hsize, hstart⟩ := hstart
      obtain ⟨hway, hadded⟩ := evolves_ran hs hannounced (hstarted Leaves) hmodule hstart
      have hcleaned := forgets_cleanUp s entry (entry.ran s)
      have hnotLeft : ¬entry.LeavesSearchPath s := fun h => hlibrary h.1
      rw [← ht, (on_loadEntry_of_ok hstart).2]
      refine ⟨hfree.continues.trans (hway.toContinues.trans hcleaned.continues),
        hcleaned.sound (hway.sound (hfree.sound hs)), ?_⟩
      rw [restoresImports_cleanUp_iff hs hway hadded (not_isModule_of_size_le hsize)]
      exact (and_iff_right hnotLeft).symm
  · rename_i hkind
    obtain ⟨failure, hstart⟩ := hstart
    obtain ⟨hload, hran⟩ := on_loadEntry_of_error hstart
    have hnotLeft : ¬entry.LeavesSearchPath s := fun h => hkind (isModuleFile_of_library h.1)
    rw [hran, ← ht, hload]
    refine ⟨hannounced.toContinues, hannounced.sound hs,
      iff_of_true (restoresImports_of_leaves hannounced) ⟨hnotLeft, tellsAll_of_subset ?_⟩⟩
    exact fun module hmodule => hannounced.loaded ▸ hmodule

end FunctionManifest
