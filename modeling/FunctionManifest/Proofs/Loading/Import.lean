import FunctionManifest.Proofs.Assoc
import FunctionManifest.Proofs.Language.Frame
import FunctionManifest.Proofs.Loading.Evolution

/-!
# What imports leave

Whatever a module imports, and however that ends, the session evolves: what was loaded before stays
loaded, what is loaded in addition is a module under a new name, and a module whose file fails is
gone again.
-/

namespace FunctionManifest

open Eval

namespace Session

/-- A sound session in which these addresses are modules evolves. -/
def Follows (known : List Nat) (s t : Session) : Prop :=
  s.Sound → (∀ address ∈ known, s.IsModule address) → s.Evolves t

theorem Follows.trans {known : List Nat} {s t u : Session} (h : Follows known s t)
    (h' : Follows known t u) : Follows known s u := by
  intro hs hknown
  have hfirst := h hs hknown
  exact hfirst.trans
    (h' (hfirst.sound hs) fun address ha => hfirst.modules address (hknown address ha))

instance (known : List Nat) : SettingFrame (Follows known) where
  refl s _ _ := .refl s
  trans _ _ _ := .trans
  allocates s cell h _ _ := Frame.allocates s cell h
  counts s _ _ := Frame.counts s
  logs s entry _ _ := Frame.logs s entry
  refills s address items items' h _ _ := Frame.refills s address items items' h
  remaps s address entries entries' h _ _ := Frame.remaps s address entries entries' h
  declares s address r r' v h hregister _ _ := Frame.declares s address r r' v h hregister
  clears s address r h _ _ := Frame.clears s address r h
  sets s address cell cell' name v hcell hwith _ _ :=
    SettingFrame.sets s address cell cell' name v hcell hwith

end Session

open Session

variable {known : List Nat} {s t : Session}

/-! ## Globals -/

/-- The relation also holds of what the statements of a module do to its own globals, and of what is
noted when a file begins to run. -/
class RunningFrame (address : Nat) (R : Session → Session → Prop) : Prop extends SettingFrame R where
  rebinds : ∀ s attributes, R s { s with heap := s.heap.replace address (.module attributes) }
  begins : ∀ s name location, R s { s with executed := s.executed ++ [(name, location)] }

@[grind .] theorem within_moduleAttributes {R : Session → Session → Prop} [AskingFrame R]
    (address : Nat) : Within R (moduleAttributes address) := by
  unfold moduleAttributes
  grind

@[grind .] theorem within_setGlobal {R : Session → Session → Prop} {address : Nat}
    [RunningFrame address R] (name : Text) (v : Value) : Within R (setGlobal address name v) :=
  within_bind (within_moduleAttributes address) fun _ s => RunningFrame.rebinds s _

theorem evolves_replace_module {address : Nat} (h : s.IsModule address) (attributes : Fields) :
    s.Evolves { s with heap := s.heap.replace address (.module attributes) } := by
  obtain ⟨before, hbefore⟩ := h
  exact .of_replace_unnamed hbefore nofun (fun _ _ => ⟨attributes, rfl⟩) rfl

instance (address : Nat) : RunningFrame address (Follows [address]) where
  rebinds _ attributes _ hknown :=
    evolves_replace_module (hknown address List.mem_cons_self) attributes
  begins s _ _ _ _ := { Evolves.refl s with }

/-! ## Loading -/

theorem on_loadedAddress? (name : Text) (s : Session) :
    (loadedAddress? name).on s =
      (.ok ((Assoc.get? s.loaded name).or
        (match ownModule? name with
        | some (.ref address) => some address
        | _ => none)), s) := by
  simp only [loadedAddress?, on_bind, on_get, next_ok]
  cases Assoc.get? s.loaded name with
  | some address => rfl
  | none =>
    cases ownModule? name with
    | none => rfl
    | some v => cases v <;> rfl

/-- What is not known by its name is not loaded under it. -/
theorem not_mem_loaded {name : Text} (h : (loadedAddress? name).on s = (.ok none, t)) :
    name ∉ t.loaded.map (·.1) := by
  rw [on_loadedAddress?, Prod.mk.injEq, Except.ok.injEq, Option.or_eq_none_iff] at h
  obtain ⟨⟨hloaded, -⟩, rfl⟩ := h
  exact (Assoc.get?_eq_none_iff _ _).mp hloaded

theorem Session.Sound.isModule (hs : t.Sound) {name : Text} {address : Nat}
    (h : (loadedAddress? name).on s = (.ok (some address), t)) : t.IsModule address := by
  rw [on_loadedAddress?, Prod.mk.injEq, Except.ok.injEq, Option.or_eq_some_iff] at h
  obtain ⟨hfound, rfl⟩ := h
  obtain hloaded | ⟨-, hown⟩ := hfound
  · exact hs.loaded _ (Assoc.mem_of_get? hloaded)
  · refine hs.own name address ?_
    split at hown <;> simp_all

@[grind .] theorem within_loadedAddress? {R : Session → Session → Prop} [IsPreorder Session R]
    (name : Text) : Within R (loadedAddress? name) :=
  within_of_kept fun s => by rw [on_loadedAddress?]

/-- Nothing but the paths of packages is another. -/
def Session.Repaths (s t : Session) : Prop := ∃ packages, t = { s with packages }

instance : IsPreorder Session Repaths where
  refl s := ⟨s.packages, rfl⟩
  trans _ _ _ := by
    rintro ⟨packages, rfl⟩ ⟨packages', rfl⟩
    exact ⟨packages', rfl⟩

theorem Session.Repaths.leaves (h : s.Repaths t) : s.Leaves t := by
  obtain ⟨packages, rfl⟩ := h
  exact { Leaves.refl s with }

@[grind .] theorem repaths_gatherAgain (package : Nat) (last : Text)
    (parent places now : List Location) :
    Within Repaths (gatherAgain package last parent places now) := by
  have hset : ∀ path, Within Repaths (setPath package path) := fun _ _ => ⟨_, rfl⟩
  unfold gatherAgain
  grind

/-- Looking for places may gather parts again, and does nothing else. -/
theorem repaths_placesOf? (names : List Text) : Within Repaths (placesOf? names) := by
  induction names with
  | nil => exact within_pure none
  | cons last parents ih =>
    unfold placesOf?
    refine within_bind within_get fun session => ?_
    split
    · exact within_pure none
    · split
      · exact within_pure none
      · exact within_pure _
      · split <;> grind

/-! ## Adding modules -/

/-- A new module under a new name. -/
theorem Session.Evolves.add {address : Nat} {name : Text} (h : s.Evolves t)
    (hmodule : t.IsModule address) (hloaded : t.loaded = s.loaded)
    (hnew : name ∉ s.loaded.map (·.1)) (packages : List (Nat × PackagePath)) :
    s.Evolves { t with loaded := Assoc.set t.loaded name address, packages } where
  toContinues := { h with }
  searchPath := h.searchPath
  adds := by
    refine ⟨[(name, address)], ?_, ?_⟩
    · rw [← hloaded] at hnew ⊢
      exact Assoc.set_of_not_mem hnew address
    · intro entry hentry
      rw [List.mem_singleton.mp hentry]
      exact ⟨hnew, hmodule⟩

/-- Forgetting a name that was not there leaves what was there. -/
theorem Session.Evolves.forget {name : Text} (h : s.Evolves t)
    (hnew : name ∉ s.loaded.map (·.1)) :
    s.Evolves { t with loaded := Assoc.erase t.loaded name } where
  toContinues := { h with }
  searchPath := h.searchPath
  adds := by
    obtain ⟨added, hloaded, hadded⟩ := h.adds
    refine ⟨Assoc.erase added name, ?_, fun entry hentry =>
      hadded entry (List.mem_of_mem_filter hentry)⟩
    have hkept : Assoc.erase s.loaded name = s.loaded := by
      refine List.filter_eq_self.mpr fun entry hentry => ?_
      have hne : entry.1 ≠ name := fun heq => hnew (heq ▸ List.mem_map_of_mem hentry)
      simp [hne]
    simp only [hloaded, Assoc.erase, List.filter_append] at hkept ⊢
    rw [hkept]

/-- What is noted as starting while a file runs is not noted any more afterwards. -/
theorem Session.Evolves.started {address : Nat}
    (h : { s with starting := address :: s.starting }.Evolves t) :
    s.Evolves { t with starting := t.starting.erase address } where
  toContinues := { h with starting := by simp [h.starting] }
  searchPath := h.searchPath
  adds := h.adds

theorem not_isModule_of_size_le {address : Nat} (h : s.heap.cells.size ≤ address) :
    ¬s.IsModule address := by
  rintro ⟨attributes, hmodule⟩
  rw [HasModule, Array.getElem?_eq_none h] at hmodule
  cases hmodule

/-- A module that is added is a new object. -/
theorem on_addModule (name packageName : Text) (file : Option Location)
    (path : Option PackagePath) (s : Session) :
    ∃ address t packages, s.Asked t ∧ t.IsModule address ∧ s.heap.cells.size ≤ address ∧
      (addModule name packageName file path).on s =
        (.ok address, { t with loaded := Assoc.set t.loaded name address, packages }) := by
  let start : Eval Fields := (startOfModule s.project name packageName file path).mapM
    fun entry => do return (entry.1, ← intern entry.2)
  have hasked : Within Asked start := by unfold start; grind
  have hsucceeds : start.Succeeds := .mapM fun entry s => ⟨_, _, rfl⟩
  obtain ⟨attributes, t, hrun⟩ := hsucceeds s
  have ht := hasked s
  rw [hrun] at ht
  refine ⟨t.heap.cells.size, _, t.packages ++ (path.map (t.heap.cells.size, ·)).toList,
    trans_of Asked ht (allocated t rfl), ⟨attributes, Heap.cell?_allocate_new _ _⟩, ht.size_le, ?_⟩
  simp only [addModule, on_bind, on_get, next_ok]
  rw [show List.mapM _ _ = start from rfl, hrun]
  rfl

section

variable {run : Runner}
  (hrun : ∀ address name location, Within (Follows [address]) (run address name location))

include hrun

/-- A new module is gone again if its file fails. -/
theorem evolves_runAdded {u : Session} {address : Nat} {name : Text} (h : s.Evolves u)
    (hnew : name ∉ s.loaded.map (·.1)) (hs : u.Sound) (hmodule : u.IsModule address)
    (location : Location) : s.Evolves ((runAdded run name location address).on u).2 := by
  have hran := hrun address name location { u with starting := address :: u.starting }
    ⟨hs.loaded, hs.own⟩ fun other hother => by rw [List.mem_singleton.mp hother]; exact hmodule
  simp only [runAdded, starts, ended, FunctionManifest.forget, on_bind, on_modify, next_ok,
    on_tryCatch, on_ensuring, on_ofExcept]
  cases hresult : (run address name location).on { u with starting := address :: u.starting } with
  | mk result t =>
    rw [hresult] at hran
    have hended := h.trans hran.started
    cases result with
    | ok _ => exact hended
    | error failure => exact hended.forget hnew

/-- Loading what was found under a new name. -/
theorem follows_loadFinding {name : Text} (hnew : name ∉ s.loaded.map (·.1)) (packageName : Text)
    (along : List Location) (finding : Finding) :
    Follows known s ((loadFinding run name packageName along finding).on s).2 := by
  intro hs _
  cases finding with
  | parts places =>
    obtain ⟨address, t, packages, ht, hmodule, -, hadd⟩ :=
      on_addModule name name none (some (.gathered along places)) s
    have hleaves := ht Leaves
    rw [loadFinding, hadd]
    exact hleaves.toEvolves.add hmodule hleaves.loaded hnew packages
  | file location package? =>
    obtain ⟨address, t, packages, ht, hmodule, -, hadd⟩ :=
      on_addModule name (if package?.isSome then name else packageName) (some location)
        (package?.map fun place => .fixed [place]) s
    have hleaves := ht Leaves
    have hadded := hleaves.toEvolves.add hmodule hleaves.loaded hnew packages
    have hran := evolves_runAdded hrun hadded hnew (hadded.sound hs) hmodule location
    rw [loadFinding, on_bind, hadd, next_ok, on_bind]
    cases hresult : (runAdded run name location address).on
        { t with loaded := Assoc.set t.loaded name address, packages } with
    | mk result u =>
      rw [hresult] at hran
      cases result <;> exact hran

theorem follows_loadAlong {name : Text} (hnew : name ∉ s.loaded.map (·.1))
    (packageName last : Text) (places : List Location) :
    Follows known s ((loadAlong run name packageName last places).on s).2 := by
  rw [loadAlong, on_bind, on_get, next_ok]
  cases findAlong s.project last places with
  | none => exact refl_of (Follows known) s
  | some finding => exact follows_loadFinding hrun hnew packageName places finding

omit hrun in
theorem within_bindSubmodule (packageName last : Text) (v : Value) :
    Within (Follows known) (bindSubmodule packageName last v) := by
  intro s
  refine related_bind (within_loadedAddress? _ s) fun package? t hfound => ?_
  cases package? with
  | none => exact refl_of (Follows known) t
  | some package =>
    intro hs _
    exact within_setGlobal (R := Follows [package]) last v t hs
      (by simpa using hs.isModule hfound)

theorem follows_loadSubmodule {last : Text} {parents : List Text}
    (hnew : dotted (last :: parents) ∉ s.loaded.map (·.1)) :
    Follows known s ((loadSubmodule run last parents).on s).2 := by
  have hleaves := (repaths_placesOf? parents s).leaves
  refine related_bind (fun _ _ => hleaves.toEvolves) fun places? t hplaces => ?_
  rw [hplaces] at hleaves
  cases places? with
  | none => exact refl_of (Follows known) t
  | some places =>
    rw [← hleaves.loaded] at hnew
    exact related_bind (follows_loadAlong hrun hnew _ _ _) fun address u _ =>
      related_bind (within_bindSubmodule _ _ _ u) fun _ v _ => refl_of (Follows known) v

omit hrun in
theorem within_unlessLoaded {name : Text} {load : Eval Nat}
    (h : ∀ s, name ∉ s.loaded.map (·.1) → Follows known s (load.on s).2) :
    Within (Follows known) (unlessLoaded name load) := by
  intro s
  refine related_bind (within_loadedAddress? _ s) fun address? t hfound => ?_
  cases address? with
  | some address => exact refl_of (Follows known) t
  | none => exact h t (not_mem_loaded hfound)

/-- Importing a module, after its parents, which may have loaded it already. -/
theorem within_loadModuleNamed (names : List Text) :
    Within (Follows known) (loadModuleNamed run names) := by
  induction names with
  | nil => exact within_throw _
  | cons last parents ih =>
    cases parents with
    | nil =>
      rw [loadModuleNamed]
      refine within_unlessLoaded fun s hnew => ?_
      rw [on_bind, on_get, next_ok]
      exact follows_loadAlong hrun hnew [] last s.searchPath
    | cons parent rest =>
      rw [loadModuleNamed]
      · exact within_unlessLoaded fun s _ => related_bind (ih s) fun _ t _ =>
          within_unlessLoaded (fun _ hnew => follows_loadSubmodule hrun hnew) t
      · exact List.cons_ne_nil parent rest

end

/-! ## Statements -/

section

variable {R : Session → Session → Prop}

section

variable [AskingFrame R]

@[grind .] theorem within_global? (address : Nat) (name : String) :
    Within R (global? address name) := by
  unfold global?
  grind

@[grind .] theorem within_importName (v : Value) (name : Text) :
    Within R (importName v name) := by
  unfold importName
  grind

@[grind .] theorem within_fullName (address : Nat) (path : Text) :
    Within R (fullName address path) := by
  unfold fullName
  grind

end

variable {imports : Importer} {address : Nat} [RunningFrame address R]

theorem within_delete (name : Text) :
    Within R (runStatement imports address (.delete name)) := by
  refine within_bind (within_moduleAttributes address) fun attributes => ?_
  split
  · exact fun s => RunningFrame.rebinds s _
  · exact within_throw _

variable (himports : ∀ name, Within R (imports name))

include himports

@[grind ←] theorem within_runImport (path : Text) (alias? : Option Text) :
    Within R (runImport imports address path alias?) := by
  unfold runImport
  grind

omit [RunningFrame address R] in
@[grind ←] theorem within_importSubmodule [AskingFrame R] (package : Nat) (name : Text) :
    Within R (importSubmodule imports package name) := by
  unfold importSubmodule
  refine within_bind (within_moduleAttributes package) fun attributes => ?_
  split
  · refine within_tryCatch (within_bind (himports _) fun _ => within_pure ()) fun failure => ?_
    grind
  · exact within_pure ()

@[grind ←] theorem within_runImportFrom (path : Text) (names : List (Text × Text)) :
    Within R (runImportFrom imports address path names) := by
  unfold runImportFrom
  refine within_bind (within_fullName address path) fun full => ?_
  refine within_bind (himports full) fun package => within_bind within_get fun session => ?_
  have hbinds : Within R (forIn names () fun entry _ => do
      setGlobal address entry.2 (← importName (.ref package) entry.1)
      pure (ForInStep.yield ())) := within_forIn fun entry _ =>
    within_bind (within_importName _ _) fun v =>
      within_bind (within_setGlobal _ v) fun _ => within_pure _
  split
  · refine within_bind (within_forIn fun entry _ => ?_) fun _ =>
      within_bind hbinds fun _ => within_pure ()
    exact within_bind (within_importSubmodule himports package entry.1) fun _ => within_pure _
  · exact within_bind hbinds fun _ => within_pure ()

theorem within_runStatement (statement : Statement) :
    Within R (runStatement imports address statement) := by
  cases statement with
  | assign name value =>
    refine within_bind (within_moduleAttributes address) fun attributes => ?_
    exact within_bind (within_evaluate _ value) fun v => within_setGlobal name v
  | delete name => exact within_delete name
  | importModule path alias? => exact within_runImport himports path alias?
  | importFrom path names => exact within_runImportFrom himports path names
  | fail kind text => exact within_throw _
  | snippet _ => exact within_pure ()

theorem within_runStatements (statements : List Statement) :
    Within R (runStatements imports address statements) := by
  induction statements with
  | nil => exact within_pure ()
  | cons statement rest ih => exact within_bind (within_runStatement himports statement) fun _ => ih

/-! ## Files -/

omit himports in
theorem within_runBegins (address : Nat) [RunningFrame address R] (name : Text)
    (location : Location) : Within R (runBegins name location) :=
  fun s => RunningFrame.begins address s name location

theorem within_runFile (name : Text) (location : Location) :
    Within R (runFile imports address name location) := by
  have hbegins := within_runBegins (R := R) address
  have hrun : ∀ statements, Within R (runStatements imports address statements) :=
    within_runStatements himports
  unfold runFile
  grind

end

/-- Whatever is imported, the session evolves. -/
theorem within_importModule (fuel : Nat) (known : List Nat) (name : Text) :
    Within (Follows known) (importModule fuel name) := by
  induction fuel generalizing known name with
  | zero => exact within_throw _
  | succ fuel ih =>
    exact within_loadModuleNamed (fun address => within_runFile (ih [address])) _

/-- Whatever the statements of a module do, and however they end, the session evolves. -/
theorem Session.Sound.evolves_runStatements (hs : s.Sound) {address : Nat}
    (hmodule : s.IsModule address) (fuel : Nat) (statements : List Statement) :
    s.Evolves ((runStatements (importModule fuel) address statements).on s).2 :=
  within_runStatements (within_importModule fuel [address]) statements s hs fun other hother => by
    rw [List.mem_singleton.mp hother]
    exact hmodule

end FunctionManifest
