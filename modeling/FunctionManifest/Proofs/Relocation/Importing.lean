import FunctionManifest.Proofs.Relocation.Evaluating
import FunctionManifest.Proofs.Loading.Import

/-!
# Imports

An import looks for loaded modules by name, and for the submodules of a package by its address. What
runs the file of a module is assumed to mirror itself, until the statements of files are run.
-/

namespace FunctionManifest

open Eval

variable {ρ : Relocation}

/-! ## Modules -/

theorem moved_ownModule? (name : Text) : moved ρ (ownModule? name) = ownModule? name := by
  unfold ownModule?
  cases Export.moduleNames.find? fun known => name = Text.ofString known <;> simp

theorem mirrors_loadedAddress? (name : Text) :
    Mirrors ρ True (loadedAddress? name) (loadedAddress? name) := by
  refine mirrors_get_bind fun s s' hs => ?_
  rw [hs.loaded, Assoc.moved_get?]
  cases Assoc.get? s.loaded name with
  | some a => exact mirrors_pure rfl
  | none =>
    have hown := moved_ownModule? (ρ := ρ) name
    cases hfound : ownModule? name with
    | none => exact mirrors_pure rfl
    | some v =>
      cases v with
      | ref a =>
        rw [hfound, moved_some, moved_ref, Option.some.injEq, Value.ref.injEq] at hown
        exact mirrors_pure (congrArg some hown.symm)
      | _ => exact mirrors_pure rfl

theorem mirrors_moduleAttributes (a : Nat) :
    Mirrors ρ True (moduleAttributes a) (moduleAttributes (ρ.address a)) := by
  refine mirrors_bind (mirrors_cell? (.ref a)) fun cell => ?_
  cases cell with
  | none => exact mirrors_pure rfl
  | some cell => cases cell <;> exact mirrors_pure rfl

theorem mirrors_setGlobal (a : Nat) (name : Text) (v : Value) :
    Mirrors ρ True (setGlobal a name v) (setGlobal (ρ.address a) name (moved ρ v)) :=
  mirrors_bind (mirrors_moduleAttributes a) fun attributes =>
    mirrors_replace a (congrArg Cell.module (Assoc.moved_set attributes name v))

theorem mirrors_global? (a : Nat) (name : String) :
    Mirrors ρ True (global? a name) (global? (ρ.address a) name) :=
  mirrors_map (mirrors_moduleAttributes a) fun attributes => Assoc.moved_get? attributes _

theorem moved_startOfModule (project : Project) (name packageName : Text) (file : Option Location)
    (path : Option PackagePath) :
    moved ρ (startOfModule project name packageName file path) =
      startOfModule project name packageName file path := by
  unfold startOfModule
  rw [← Assoc.moved_setAll, moved_moduleStart]
  congr 1
  cases file <;> cases path with
  | none => simp
  | some path => cases path <;> simp

/-- A session with a new module. -/
def Session.added (s : Session) (name : Text) (path : Option PackagePath) (attributes : Fields) :
    Session :=
  { s with
    heap := (s.heap.allocate (.module attributes)).2
    loaded := Assoc.set s.loaded name s.heap.cells.size
    packages := s.packages ++ (path.map (s.heap.cells.size, ·)).toList }

theorem get?_append_path (packages : List (Nat × PackagePath)) (path : Option PackagePath)
    (a b : Nat) :
    Assoc.get? (packages ++ (path.map (a, ·)).toList) b =
      (Assoc.get? packages b).or (if a = b then path else none) := by
  unfold Assoc.get? Assoc.lookBy
  rw [List.find?_append, Option.map_or]
  congr 1
  cases path <;> simp [List.find?_cons]
  split <;> simp_all

theorem Session.Moved.added {s s' : Session} (hs : s.Moved ρ True s') (name : Text)
    (path : Option PackagePath)
    (attributes : Fields) :
    Session.Moved ρ True (s.added name path attributes) (s'.added name path (moved ρ attributes))
      where
  heap := hs.heap.allocate (.module attributes)
  current := hs.current
  ordinary := .inl trivial
  environment := hs.environment
  project := hs.project
  loaded := by
    have hsize : s'.heap.cells.size = moved ρ s.heap.cells.size := (hs.heap.size 0).symm
    simp only [Session.added, hs.loaded, hsize, Assoc.moved_set]
  packages a := by
    have hsize : s'.heap.cells.size = ρ.address s.heap.cells.size := (hs.heap.size 0).symm
    simp only [Session.added, get?_append_path, hs.packages, hsize, ρ.address_injective.eq_iff]
  restPath b hb := by
    have hsize : s'.heap.cells.size = ρ.address s.heap.cells.size := (hs.heap.size 0).symm
    simp only [Session.added, get?_append_path, hsize, if_neg (hb _), Option.or_none]
    exact hs.restPath b hb
  starting := hs.starting
  searchPath := hs.searchPath
  packaged a place h := by
    simp only [Session.added, get?_append_path, Option.or_eq_some_iff] at h
    have hsize := hs.shared
    simp only [Session.added, Heap.allocate, Array.size_push]
    obtain h | ⟨-, h⟩ := h
    · have := hs.packaged a place h
      omega
    · split at h
      · omega
      · cases h
  shared := by
    have hsize := hs.shared
    simp only [Session.added, Heap.allocate, Array.size_push]
    omega

theorem mirrors_allocateModule (name : Text) (path : Option PackagePath) (attributes : Fields) :
    Mirrors ρ True
      (do
        match ← allocate (.module attributes) with
        | .ref address =>
          modify fun session =>
            { session with
              loaded := Assoc.set session.loaded name address
              packages := session.packages ++ (path.map (address, ·)).toList }
          return address
        | _ => return 0)
      (do
        match ← allocate (.module (moved ρ attributes)) with
        | .ref address =>
          modify fun session =>
            { session with
              loaded := Assoc.set session.loaded name address
              packages := session.packages ++ (path.map (address, ·)).toList }
          return address
        | _ => return 0) :=
  fun _ _ hs => ⟨congrArg Except.ok (hs.heap.size 0).symm, hs.added name path attributes⟩

theorem mirrors_addModule (name packageName : Text) (file : Option Location)
    (path : Option PackagePath) :
    Mirrors ρ True (addModule name packageName file path)
      (addModule name packageName file path) := by
  refine mirrors_get_bind fun s s' hs => ?_
  rw [hs.project]
  have hattributes : Mirrors ρ True
      ((startOfModule s.project name packageName file path).mapM fun field => do
        return (field.1, ← intern field.2))
      ((moved ρ (startOfModule s.project name packageName file path)).mapM fun field => do
        return (field.1, ← intern field.2)) :=
    mirrors_mapM _ fun field => mirrors_map (mirrors_intern rfl) fun v => rfl
  rw [moved_startOfModule] at hattributes
  exact mirrors_bind hattributes (mirrors_allocateModule name path)

theorem mirrors_forget (name : Text) : Mirrors ρ True (forget name) (forget name) := by
  refine fun s s' hs => ⟨rfl, { hs with heap := hs.heap, loaded := ?_ }⟩
  change Assoc.erase s'.loaded name = moved ρ (Assoc.erase s.loaded name)
  rw [hs.loaded, Assoc.moved_erase]

theorem mirrors_starts (a : Nat) : Mirrors ρ True (starts a) (starts (ρ.address a)) := by
  refine fun s s' hs => ⟨rfl, { hs with heap := hs.heap, starting := fun b => ?_ }⟩
  change (ρ.address a :: s'.starting).count (ρ.address b) = (a :: s.starting).count b
  rw [List.count_cons, List.count_cons, hs.starting]
  simp [ρ.address_injective.eq_iff]

theorem mirrors_ended (a : Nat) : Mirrors ρ True (ended a) (ended (ρ.address a)) := by
  refine fun s s' hs => ⟨rfl, { hs with heap := hs.heap, starting := fun b => ?_ }⟩
  change (s'.starting.erase (ρ.address a)).count (ρ.address b) = (s.starting.erase a).count b
  rw [List.count_erase, List.count_erase, hs.starting]
  simp [ρ.address_injective.eq_iff]

/-! ## Places of packages -/

theorem moved_location (place : Location) : moved ρ place = place := moved_plainList place

theorem moved_places (places : List Location) : moved ρ places = places := by
  induction places with
  | nil => rfl
  | cons place rest ih => rw [moved_cons, moved_location, ih]

namespace Session

/-- Packages stay packages. -/
def KeepsPackages (s t : Session) :
    Prop := ∀ a, (Assoc.get? s.packages a).isSome → (Assoc.get? t.packages a).isSome

instance : IsPreorder Session KeepsPackages where
  refl _ _ h := h
  trans _ _ _ h h' a ha := h' a (h a ha)

theorem Moved.placed {s s' : Session} (hs : s.Moved ρ True s') {a : Nat}
    (ha : (Assoc.get? s.packages a).isSome)
    (path : PackagePath) :
    Session.Moved ρ True { s with packages := Assoc.set s.packages a path }
      { s' with packages := Assoc.set s'.packages (ρ.address a) path } where
  heap := hs.heap
  current := hs.current
  ordinary := .inl trivial
  environment := hs.environment
  project := hs.project
  loaded := hs.loaded
  packages b := by
    by_cases hab : a = b
    · subst hab
      rw [Assoc.get?_set_self, Assoc.get?_set_self]
    · rw [Assoc.get?_set_of_ne _ _ hab, Assoc.get?_set_of_ne _ _ (ρ.address_injective.ne hab),
        hs.packages]
  restPath b hb := by
    rw [Assoc.get?_set_of_ne _ _ (hb a)]
    exact hs.restPath b hb
  starting := hs.starting
  searchPath := hs.searchPath
  packaged b place h := by
    by_cases hab : a = b
    · subst hab
      obtain ⟨before, hbefore⟩ := Option.isSome_iff_exists.mp ha
      exact hs.packaged a before hbefore
    · rw [Assoc.get?_set_of_ne _ _ hab] at h
      exact hs.packaged b place h
  shared := hs.shared

theorem isSome_getPackage? (packages : List (Nat × PackagePath)) (a : Nat) :
    (Assoc.get? packages a).isSome = Assoc.contains packages a := by
  rw [Bool.eq_iff_iff]
  simp [Assoc.get?, Assoc.lookBy, Assoc.contains]

theorem Moved.contains_packages {s s' : Session} (hs : s.Moved ρ True s') (a : Nat) :
    Assoc.contains s'.packages (ρ.address a) = Assoc.contains s.packages a := by
  rw [← isSome_getPackage?, ← isSome_getPackage?, hs.packages]

end Session

open Session

theorem keepsPackages_gatherAgain (package : Nat) (last : Text)
    (parent places now : List Location) :
    Within KeepsPackages (gatherAgain package last parent places now) := by
  have hset : ∀ path, Within KeepsPackages (setPath package path) := fun path s a ha => by
    change (Assoc.get? (Assoc.set s.packages package path) a).isSome
    by_cases hpackage : package = a
    · rw [hpackage, Assoc.get?_set_self]
      rfl
    · rwa [Assoc.get?_set_of_ne _ _ hpackage]
  unfold gatherAgain
  grind

theorem keepsPackages_placesOf? (names : List Text) : Within KeepsPackages (placesOf? names) := by
  have hgather := keepsPackages_gatherAgain
  induction names with
  | nil => exact within_pure none
  | cons last parents ih =>
    unfold placesOf?
    refine within_bind within_get fun session => ?_
    split
    · exact within_pure none
    · split
      · exact within_pure none
      · exact within_pure _
      · split <;> grind

theorem mirrorsFrom_gatherAgain {s s' : Session} (hs : s.Moved ρ True s') {a : Nat}
    (ha : (Assoc.get? s.packages a).isSome) (last : Text) (parent places now : List Location) :
    MirrorsFrom ρ True s s' (gatherAgain a last parent places now)
      (gatherAgain (ρ.address a) last parent places now) := by
  unfold gatherAgain
  split
  · exact ⟨congrArg Except.ok (moved_places _).symm, hs⟩
  · unfold MirrorsFrom
    simp only [on_bind, on_get, next_ok, hs.project]
    exact ⟨congrArg Except.ok (moved_places _).symm, hs.placed ha _⟩

theorem mirrors_placesOf? (names : List Text) :
    Mirrors ρ True (placesOf? names) (placesOf? names) := by
  induction names with
  | nil => exact mirrors_pure rfl
  | cons last parents ih =>
    intro s s' hs
    unfold placesOf?
    refine mirrorsFrom_get_bind ?_
    rw [hs.loaded, Assoc.moved_get?]
    cases Assoc.get? s.loaded (dotted (last :: parents)) with
    | none => exact ⟨rfl, hs⟩
    | some a =>
      simp only [moved_some, moved_address, hs.packages]
      cases hpackage : Assoc.get? s.packages a with
      | none => exact ⟨rfl, hs⟩
      | some path =>
        cases path with
        | fixed places => exact ⟨congrArg (Except.ok ∘ some) (moved_places _).symm, hs⟩
        | gathered parent places =>
          have hgathered {t t' : Session} (ht : t.Moved ρ True t')
              (ha : (Assoc.get? t.packages a).isSome)
              (now : List Location) :
              MirrorsFrom ρ True t t' (some <$> gatherAgain a last parent places now)
                (some <$> gatherAgain (ρ.address a) last parent places now) :=
            mirrorsFrom_map (mirrorsFrom_gatherAgain ht ha last parent places now) fun _ => rfl
          have hknown : (Assoc.get? s.packages a).isSome := by rw [hpackage]; rfl
          cases parents with
          | nil =>
            rw [hs.searchPath]
            exact hgathered hs hknown s.searchPath
          | cons parent parents =>
            refine mirrorsFrom_bind (ih s s' hs) fun now t t' ht hmoved => ?_
            have hkept := keepsPackages_placesOf? (parent :: parents) s a hknown
            rw [ht] at hkept
            cases now with
            | none => exact ⟨rfl, hmoved⟩
            | some now =>
              rw [moved_some, moved_places]
              exact hgathered hmoved hkept now

/-! ## Running files -/

/-- The second runner runs files as the first one does. -/
def Runner.Mirrors (ρ : Relocation) (run run' : Runner) : Prop :=
  ∀ a name location, Eval.Mirrors ρ True (run a name location) (run' (ρ.address a) name location)

/-- The second importer imports what the first one does. -/
def Importer.Mirrors (ρ : Relocation) (imports imports' : Importer) : Prop :=
  ∀ name, Eval.Mirrors ρ True (imports name) (imports' name)

section

variable {run run' : Runner} (h : Runner.Mirrors ρ run run')

include h

theorem mirrors_runAdded (name : Text) (location : Location) (a : Nat) :
    Mirrors ρ True (runAdded run name location a) (runAdded run' name location (ρ.address a)) :=
  mirrors_bind (mirrors_starts a) fun _ =>
    mirrors_tryCatch (mirrors_ensuring (h a name location) (mirrors_ended a)) fun failure =>
      mirrors_bind (mirrors_forget name) fun _ => mirrors_throw failure

theorem mirrors_loadFinding (name packageName : Text) (along : List Location) (finding : Finding) :
    Mirrors ρ True (loadFinding run name packageName along finding)
      (loadFinding run' name packageName along finding) := by
  cases finding with
  | parts places => exact mirrors_addModule _ _ _ _
  | file location package? =>
    exact mirrors_bind (mirrors_addModule _ _ _ _) fun a =>
      mirrors_bind (mirrors_runAdded h name location a) fun _ => mirrors_pure rfl

theorem mirrors_loadAlong (name packageName last : Text) (places : List Location) :
    Mirrors ρ True (loadAlong run name packageName last places)
      (loadAlong run' name packageName last places) := by
  refine mirrors_get_bind fun s s' hs => ?_
  rw [hs.project]
  cases findAlong s.project last places with
  | none => exact mirrors_throw _
  | some finding => exact mirrors_loadFinding h name packageName places finding

omit h in
theorem mirrors_bindSubmodule (packageName last : Text) (submodule : Value) :
    Mirrors ρ True (bindSubmodule packageName last submodule)
      (bindSubmodule packageName last (moved ρ submodule)) := by
  refine mirrors_bind (mirrors_loadedAddress? packageName) fun package => ?_
  cases package with
  | none => exact mirrors_pure rfl
  | some package => exact mirrors_setGlobal package last submodule

theorem mirrors_loadSubmodule (last : Text) (parents : List Text) :
    Mirrors ρ True (loadSubmodule run last parents) (loadSubmodule run' last parents) := by
  refine mirrors_bind (mirrors_placesOf? parents) fun places => ?_
  cases places with
  | none => exact mirrors_throw _
  | some places =>
    rw [moved_some, moved_places]
    refine mirrors_bind (mirrors_loadAlong h _ _ last places) fun a => ?_
    exact mirrors_bind (mirrors_bindSubmodule _ last (.ref a)) fun _ => mirrors_pure rfl

omit h in
theorem mirrors_unlessLoaded (name : Text) {load load' : Eval Nat}
    (hload : Mirrors ρ True load load') :
    Mirrors ρ True (unlessLoaded name load) (unlessLoaded name load') := by
  refine mirrors_bind (mirrors_loadedAddress? name) fun found => ?_
  cases found with
  | none => exact hload
  | some a => exact mirrors_pure rfl

theorem mirrors_loadModuleNamed (names : List Text) :
    Mirrors ρ True (loadModuleNamed run names) (loadModuleNamed run' names) := by
  induction names with
  | nil => exact mirrors_throw _
  | cons last parents ih =>
    refine mirrors_unlessLoaded _ ?_
    cases parents with
    | nil =>
      refine mirrors_get_bind fun s s' hs => ?_
      rw [hs.searchPath]
      exact mirrors_loadAlong h _ _ last _
    | cons parent parents =>
      exact mirrors_bind ih fun _ => mirrors_unlessLoaded _ (mirrors_loadSubmodule h last _)

end

/-! ## Statements -/

instance : Plain Node where

theorem mirrors_importName (v : Value) (name : Text) :
    Mirrors ρ True (importName v name) (importName (moved ρ v) name) := by
  refine mirrors_heap_bind fun heap heap' _ => ?_
  have howner : (moduleName? (((heap'.cell? (moved ρ v)).map Cell.attributes).getD [])).getD [] =
      (moduleName? (((heap.cell? v).map Cell.attributes).getD [])).getD [] := by
    rw [Heap.moved_cell?]
    cases heap.cell? v <;> simp
  simp only [howner, Heap.moved_stored?]
  cases heap.stored? v name with
  | some found => exact mirrors_pure rfl
  | none =>
    refine mirrors_bind (mirrors_loadedAddress? _) fun submodule => ?_
    cases submodule with
    | some submodule => exact mirrors_pure rfl
    | none => exact mirrors_bind (mirrors_isStarting v) fun starting => mirrors_failed rfl

theorem mirrors_fullName (a : Nat) (path : Text) :
    Mirrors ρ True (fullName a path) (fullName (ρ.address a) path) := by
  have hstart (package : Text) : Mirrors ρ True
      (do
        let start ← MonadExcept.ofExcept (startOf package (path.takeWhile (· = .char '.')).length)
        let rest := path.drop (path.takeWhile (· = .char '.')).length
        return if rest = [] then start else start ++ "." ++ rest : Eval Text)
      (do
        let start ← MonadExcept.ofExcept (startOf package (path.takeWhile (· = .char '.')).length)
        let rest := path.drop (path.takeWhile (· = .char '.')).length
        return if rest = [] then start else start ++ "." ++ rest) :=
    mirrors_map (α := Text) (mirrors_ofExcept (moved_plainResult _).symm) fun _ => rfl
  unfold fullName
  dsimp only
  split
  · exact mirrors_pure rfl
  · refine mirrors_bind (mirrors_global? a "__package__") fun package => ?_
    cases package with
    | none => exact hstart []
    | some v =>
      cases v with
      | text package => exact hstart package
      | _ => exact hstart []

section

variable {imports imports' : Importer} (h : Importer.Mirrors ρ imports imports')

include h

theorem mirrors_runImport (a : Nat) (path : Text) (alias? : Option Text) :
    Mirrors ρ True (runImport imports a path alias?)
      (runImport imports' (ρ.address a) path alias?) := by
  refine mirrors_bind (h path) fun _ => mirrors_bind (h _) fun top => ?_
  cases alias? with
  | none => exact mirrors_setGlobal a _ (.ref top)
  | some name =>
    have hnames := mirrors_foldlM (ρ := ρ) ((Text.split '.' path).drop 1) (Value.ref top)
      fun v name => mirrors_importName v name
    rw [moved_plainList] at hnames
    exact mirrors_bind hnames fun v => mirrors_setGlobal a name v

theorem mirrors_importSubmodule (package : Nat) (name : Text) :
    Mirrors ρ True (importSubmodule imports package name)
      (importSubmodule imports' (ρ.address package) name) := by
  refine mirrors_bind (mirrors_moduleAttributes package) fun attributes => ?_
  rw [Assoc.moved_contains, moved_moduleName?]
  split
  · refine mirrors_tryCatch (mirrors_bind (h _) fun _ => mirrors_pure rfl) fun failure => ?_
    split
    · exact mirrors_throw failure
    · exact mirrors_pure rfl
  · exact mirrors_pure rfl

theorem mirrors_runImportFrom (a : Nat) (path : Text) (names : List (Text × Text)) :
    Mirrors ρ True (runImportFrom imports a path names)
      (runImportFrom imports' (ρ.address a) path names) := by
  refine mirrors_bind (mirrors_fullName a path) fun path => mirrors_bind (h _) fun package => ?_
  have hbound (entry : Text × Text) : Mirrors ρ True
      (do
        setGlobal a entry.2 (← importName (.ref package) entry.1)
        pure (ForInStep.yield PUnit.unit))
      (do
        setGlobal (ρ.address a) entry.2 (← importName (.ref (ρ.address package)) entry.1)
        pure (ForInStep.yield PUnit.unit)) :=
    mirrors_bind (mirrors_importName (.ref package) entry.1) fun v =>
      mirrors_bind (mirrors_setGlobal a entry.2 v) fun _ => mirrors_pure rfl
  refine mirrors_get_bind fun s s' hs => ?_
  rw [moved_address, Session.Moved.contains_packages hs]
  split
  · refine mirrors_bind (mirrors_forIn names fun entry => ?_) fun _ => ?_
    · exact mirrors_bind (mirrors_importSubmodule h package entry.1) fun _ => mirrors_pure rfl
    · exact mirrors_bind (mirrors_forIn names fun entry => hbound entry) fun _ => mirrors_pure rfl
  · exact mirrors_bind (mirrors_forIn names fun entry => hbound entry) fun _ => mirrors_pure rfl

omit h in
theorem moved_globals (attributes : Fields) (name : Text) :
    globals (moved ρ attributes) name = moved ρ (globals attributes name) := by
  unfold globals
  rw [Assoc.moved_get?]
  cases Assoc.get? attributes name <;> rfl

theorem mirrors_runStatement (a : Nat) (statement : Statement) :
    Mirrors ρ True (runStatement imports a statement)
      (runStatement imports' (ρ.address a) statement) := by
  cases statement with
  | assign name value =>
    refine mirrors_bind (mirrors_moduleAttributes a) fun attributes => ?_
    exact mirrors_bind (mirrors_evaluate (moved_globals attributes) value) fun v =>
      mirrors_setGlobal a name v
  | delete name =>
    refine mirrors_bind (mirrors_moduleAttributes a) fun attributes => ?_
    rw [Assoc.moved_contains]
    split
    · exact mirrors_replace a (congrArg Cell.module (Assoc.moved_erase attributes name))
    · exact mirrors_throw _
  | importModule path alias? => exact mirrors_runImport h a path alias?
  | importFrom path names => exact mirrors_runImportFrom h a path names
  | fail kind text => exact mirrors_throw _
  | snippet => exact mirrors_pure rfl

theorem mirrors_runStatements (a : Nat) (statements : List Statement) :
    Mirrors ρ True (runStatements imports a statements)
      (runStatements imports' (ρ.address a) statements) := by
  induction statements with
  | nil => exact mirrors_pure rfl
  | cons statement rest ih => exact mirrors_bind (mirrors_runStatement h a statement) fun _ => ih

omit h in
theorem mirrors_runBegins (name : Text) (location : Location) :
    Mirrors ρ True (runBegins name location) (runBegins name location) :=
  fun _ _ hs => ⟨rfl, { hs with heap := hs.heap }⟩

theorem mirrors_runFile : Runner.Mirrors ρ (runFile imports) (runFile imports') := by
  intro a name location
  refine mirrors_get_bind fun s s' hs => ?_
  rw [hs.project]
  cases s.project.body? location with
  | none => exact mirrors_throw _
  | some body =>
    cases body with
    | bytes bytes =>
      simp only
      split
      · exact mirrors_pure rfl
      · exact mirrors_throw _
    | statements marked statements =>
      refine mirrors_bind (mirrors_ofExcept (moved_plainResult _).symm) fun tree => ?_
      refine mirrors_bind (mirrors_ofExcept (moved_plainResult _).symm) fun _ => ?_
      exact mirrors_bind (mirrors_runBegins name location) fun _ =>
        mirrors_runStatements h a statements

end

theorem mirrors_importModule (fuel : Nat) :
    Importer.Mirrors ρ (importModule fuel) (importModule fuel) := by
  induction fuel with
  | zero => exact fun name => mirrors_throw _
  | succ fuel ih =>
    exact fun name => mirrors_loadModuleNamed (mirrors_runFile ih) (reversedName name)

end FunctionManifest
