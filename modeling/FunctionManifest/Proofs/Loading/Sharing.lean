import FunctionManifest.Proofs.Loading.Load

/-!
# What every source shares

The program's own modules, functions and constants are objects that every source can reach and can
give attributes. Whatever sources do, and however that ends, such an object stays as it is unless an
attribute of it is set: what runs is a module of its own, and what is filled was made by a source.
Only the registry outside all scopes is filled by declarations.
-/

namespace FunctionManifest

open Eval

/-- What can be changed without setting an attribute, unless it is a module. -/
def Cell.isVessel : Cell → Bool
  | .list _ | .mapping _ | .registry _ => true
  | _ => false

namespace Heap

theorem size_initial : initial.cells.size = firstNative + 1 := by
  simp [initial, initialCells, firstNative, firstModule, firstBuiltin, firstConstant]
  omega

theorem isVessel_initial {a : Nat} {cell : Cell} (hcell : initial.cells[a]? = some cell)
    (hvessel : cell.isVessel = true) : a = 1 := by
  have hother : ∀ a < firstNative + 1, a ≠ 1 → initial.cells[a]?.any Cell.isVessel = false := by
    decide +kernel
  by_contra hne
  have hlt : a < firstNative + 1 := by
    rw [← size_initial]
    exact (Array.getElem?_eq_some_iff.mp hcell).1
  have hnone := hother a hlt hne
  rw [hcell, Option.any_some, hvessel] at hnone
  cases hnone

end Heap

namespace Session

/-- No attribute of the object at the address was ever set. -/
def Untouched (s : Session) (a : Nat) : Prop := ∀ setting ∈ s.settings, setting.1 ≠ a

/-- What every source shares is as it was, as far as no attribute was set, and it is apart from what
sources make and from the modules that are loaded. -/
structure Apart (s : Session) : Prop where
  size : Heap.firstNative < s.heap.cells.size
  shared : ∀ a ≤ Heap.firstNative, a ≠ 1 → s.Untouched a →
    s.heap.cells[a]? = Heap.initial.cells[a]?
  registry : ∃ r, s.HasRegistry 1 r
  loaded : ∀ module ∈ s.loaded, Heap.firstNative < module.2 ∧ ownModule? module.1 = none

theorem apart_fresh (project : Project) (environment : Environment) :
    (fresh project environment).Apart where
  size := Nat.lt_of_lt_of_eq (Nat.lt_succ_self _) Heap.size_initial.symm
  shared _ _ _ _ := rfl
  registry := ⟨.empty, rfl⟩
  loaded := nofun

/-- What runs apart from the shared objects, in modules that are apart from them, stays so. -/
def KeepsApart (known : List Nat) (s t : Session) : Prop :=
  s.Apart → (∀ address ∈ known, Heap.firstNative < address) → t.Apart

variable {s t : Session} {known : List Nat}

namespace Apart

/-- One object changes, which is not shared, or is the registry, or had an attribute set. -/
theorem of_replace (hs : s.Apart) (address : Nat) (cell : Cell) (settings : List (Nat × Text))
    (changes : List RegistryChange) (hkept : ∀ setting ∈ s.settings, setting ∈ settings)
    (hplace : address ≤ Heap.firstNative →
      address = 1 ∧ (∃ r, cell = .registry r) ∨
      address ≠ 1 ∧ ∃ setting ∈ settings, setting.1 = address) :
    { s with heap := s.heap.replace address cell, settings, changes }.Apart where
  size := by simpa [Heap.replace] using hs.size
  shared a hle hother huntouched := by
    rw [getElem?_replace, if_neg]
    · exact hs.shared a hle hother fun setting hsetting => huntouched setting (hkept _ hsetting)
    · rintro ⟨rfl, -⟩
      obtain ⟨hfirst, -⟩ | ⟨-, setting, hsetting, hset⟩ := hplace hle
      · exact hother hfirst
      · exact huntouched setting hsetting hset
  registry := by
    obtain ⟨r, hr⟩ := hs.registry
    rw [HasRegistry] at hr
    simp only [HasRegistry, getElem?_replace]
    split
    · rename_i heq
      have hfirst : 1 ≤ Heap.firstNative := by decide
      obtain ⟨-, r', rfl⟩ | ⟨hne, -⟩ := hplace (heq.1 ▸ hfirst)
      · exact ⟨r', rfl⟩
      · exact absurd heq.1 hne
    · exact ⟨r, hr⟩
  loaded := hs.loaded

/-- Among the shared objects only the registry can be filled. -/
theorem place (hs : s.Apart) {address : Nat} {cell : Cell}
    (hcell : s.heap.cells[address]? = some cell) (hvessel : cell.isVessel = true)
    (hle : address ≤ Heap.firstNative) :
    address = 1 ∨ address ≠ 1 ∧ ∃ setting ∈ s.settings, setting.1 = address := by
  by_contra hplace
  push Not at hplace
  obtain ⟨hne, huntouched⟩ := hplace
  rw [hs.shared address hle hne (huntouched hne)] at hcell
  exact hne (Heap.isVessel_initial hcell hvessel)

/-- A collection is filled or emptied. -/
theorem refill (hs : s.Apart) {address : Nat} {cell : Cell} (cell' : Cell)
    (hcell : s.heap.cells[address]? = some cell) (hvessel : cell.isVessel = true)
    (hregistry : ∀ r, cell ≠ .registry r) :
    { s with heap := s.heap.replace address cell' }.Apart := by
  refine hs.of_replace address cell' s.settings s.changes (fun _ h => h) fun hle => .inr ?_
  obtain rfl | hplace := hs.place hcell hvessel hle
  · obtain ⟨r, hr⟩ := hs.registry
    exact absurd (Option.some.inj (hcell.symm.trans hr)) (hregistry r)
  · exact hplace

/-- Something is declared in a registry, or it is cleared. -/
theorem changed (hs : s.Apart) {address : Nat} {r : Registry Value}
    (hr : s.HasRegistry address r) (r' : Registry Value) (declared : Option Declaration) :
    (s.changed address r' declared).Apart :=
  hs.of_replace address (.registry r') s.settings _ (fun _ h => h) fun hle =>
    (hs.place hr rfl hle).imp_left fun hfirst => ⟨hfirst, r', rfl⟩

theorem allocate (hs : s.Apart) (cell : Cell) :
    { s with heap := (s.heap.allocate cell).2 }.Apart where
  size := by
    simp only [Heap.allocate, Array.size_push]
    exact Nat.lt_succ_of_lt hs.size
  shared a hle hother huntouched := by
    have hsize := hs.size
    simp only [Heap.allocate, Array.getElem?_push]
    rw [if_neg (by omega)]
    exact hs.shared a hle hother huntouched
  registry := by
    obtain ⟨r, hr⟩ := hs.registry
    exact ⟨r, getElem?_allocate cell hr⟩
  loaded := hs.loaded

/-- An attribute is set, which a registry does not allow. -/
theorem set (hs : s.Apart) {address : Nat} {cell cell' : Cell} {name : Text} {v : Value}
    (hcell : s.heap.cells[address]? = some cell) (hwith : cell.with s.heap name v = .ok cell') :
    { s with
      heap := s.heap.replace address cell'
      settings := s.settings ++ [(address, name)] }.Apart := by
  refine hs.of_replace address cell' _ s.changes (fun _ h => List.mem_append_left _ h) fun _ =>
    .inr ⟨?_, (address, name), by simp, rfl⟩
  rintro rfl
  obtain ⟨r, hr⟩ := hs.registry
  obtain rfl := Option.some.inj (hcell.symm.trans hr)
  exact with_registry hwith

/-- The globals of a module change that is not shared. -/
theorem rebind (hs : s.Apart) {address : Nat} (h : Heap.firstNative < address)
    (attributes : Fields) :
    { s with heap := s.heap.replace address (.module attributes) }.Apart :=
  hs.of_replace address (.module attributes) s.settings s.changes (fun _ h => h) fun hle => by omega

end Apart

instance (known : List Nat) : SettingFrame (KeepsApart known) where
  refl _ hs _ := hs
  trans _ _ _ h h' hs hknown := h' (h hs hknown) hknown
  allocates _ cell _ hs _ := hs.allocate cell
  counts _ hs _ := { hs with }
  logs _ _ hs _ := { hs with }
  refills _ _ _ items' h hs _ := hs.refill (.list items') h rfl nofun
  remaps _ _ _ entries' h hs _ := hs.refill (.mapping entries') h rfl nofun
  declares _ _ _ r' _ h _ hs _ := hs.changed h r' _
  clears _ _ r h hs _ := hs.changed h r.clear none
  sets _ _ _ _ _ _ hcell hwith hs _ := hs.set hcell hwith

instance (address : Nat) : RunningFrame address (KeepsApart [address]) where
  rebinds _ attributes hs hknown := hs.rebind (hknown address List.mem_cons_self) attributes
  begins _ _ _ hs _ := { hs with }

end Session

open Session

variable {known : List Nat} {s t : Session}

/-! ## Imports -/

theorem Session.Repaths.apart (h : s.Repaths t) (hs : s.Apart) : t.Apart := by
  obtain ⟨packages, rfl⟩ := h
  exact { hs with }

theorem Session.Forgets.apart (h : s.Forgets t) (hs : s.Apart) : t.Apart := by
  obtain ⟨loaded, searchPath, rfl, hloaded⟩ := h
  exact { hs with loaded := fun module hmodule => hs.loaded module (hloaded module hmodule) }

theorem Session.Apart.asked (hs : s.Apart) (h : s.Asked t) : t.Apart := h (KeepsApart []) hs nofun

/-- A new module is under a name of its own, at an address of its own. -/
theorem Session.Apart.add (hs : s.Apart) {name : Text} {address : Nat}
    (haddress : Heap.firstNative < address) (hname : ownModule? name = none)
    (packages : List (Nat × PackagePath)) :
    { s with loaded := Assoc.set s.loaded name address, packages }.Apart where
  size := hs.size
  shared := hs.shared
  registry := hs.registry
  loaded module hmodule := by
    rcases Assoc.mem_of_mem_set hmodule with hmodule | rfl
    · exact hs.loaded module hmodule
    · exact ⟨haddress, hname⟩

theorem within_forget (name : Text) : Within (KeepsApart known) (forget name) := fun _ hs _ =>
  { hs with loaded := fun module hmodule => hs.loaded module (List.mem_of_mem_filter hmodule) }

/-- What is not known by its name is none of the program's own modules. -/
theorem ownModule?_of_unloaded {name : Text} (h : (loadedAddress? name).on s = (.ok none, t)) :
    ownModule? name = none := by
  rw [on_loadedAddress?, Prod.mk.injEq, Except.ok.injEq, Option.or_eq_none_iff] at h
  obtain ⟨⟨-, hown⟩, -⟩ := h
  cases hfound : ownModule? name with
  | none => rfl
  | some v =>
    obtain ⟨known, -, rfl⟩ := Option.map_eq_some_iff.mp hfound
    rw [hfound] at hown
    cases hown

/-- Only loaded modules are looked into. -/
theorem ownModule?_of_placesOf? (hs : s.Apart) {names : List Text} {places : List Location}
    (h : (placesOf? names).on s = (.ok (some places), t)) : ownModule? (dotted names) = none := by
  cases names with
  | nil => cases h
  | cons last parents =>
    simp only [placesOf?, on_bind, on_get, next_ok] at h
    split at h
    · cases h
    · rename_i address hloaded
      exact (hs.loaded _ (Assoc.mem_of_get? hloaded)).2

section

variable {run : Runner}
  (hrun : ∀ address name location, Within (KeepsApart [address]) (run address name location))

include hrun

theorem keepsApart_runAdded (name : Text) (location : Location) (address : Nat) :
    Within (KeepsApart [address]) (runAdded run name location address) := by
  have hstarts : Within (KeepsApart [address]) (starts address) := fun _ hs _ => { hs with }
  have hended : Within (KeepsApart [address]) (ended address) := fun _ hs _ => { hs with }
  have hforget : Within (KeepsApart [address]) (forget name) := within_forget name
  unfold runAdded
  grind

theorem keepsApart_loadFinding {name : Text} (hname : ownModule? name = none) (packageName : Text)
    (along : List Location) (finding : Finding) :
    Within (KeepsApart known) (loadFinding run name packageName along finding) := by
  intro s hs _
  have hsize := hs.size
  cases finding with
  | parts places =>
    obtain ⟨address, t, packages, ht, -, hnew, hadd⟩ :=
      on_addModule name name none (some (.gathered along places)) s
    rw [loadFinding, hadd]
    exact (hs.asked ht).add (by omega) hname packages
  | file location package? =>
    obtain ⟨address, t, packages, ht, -, hnew, hadd⟩ :=
      on_addModule name (if package?.isSome then name else packageName) (some location)
        (package?.map fun place => .fixed [place]) s
    have haddress : Heap.firstNative < address := by omega
    rw [loadFinding, on_bind, hadd, next_ok]
    exact within_bind (keepsApart_runAdded hrun name location address) (fun _ => within_pure address) _
      ((hs.asked ht).add haddress hname packages) (by simpa using haddress)

theorem keepsApart_loadAlong {name : Text} (hname : ownModule? name = none)
    (packageName last : Text) (places : List Location) :
    Within (KeepsApart known) (loadAlong run name packageName last places) := by
  refine within_bind within_get fun session => ?_
  split
  · exact within_throw _
  · exact keepsApart_loadFinding hrun hname packageName places _

omit hrun in
/-- A package that is none of the program's own gets its submodule as an attribute. -/
theorem keepsApart_bindSubmodule {packageName : Text} (hname : ownModule? packageName = none)
    (last : Text) (v : Value) : Within (KeepsApart known) (bindSubmodule packageName last v) := by
  intro s hs _
  rw [bindSubmodule, on_bind, on_loadedAddress?, next_ok, hname]
  cases hloaded : Assoc.get? s.loaded packageName with
  | none => exact hs
  | some package =>
    have haddress := (hs.loaded _ (Assoc.mem_of_get? hloaded)).1
    exact within_setGlobal (R := KeepsApart [package]) last v s hs (by simpa using haddress)

theorem keepsApart_loadSubmodule {last : Text} {parents : List Text}
    (hname : ownModule? (dotted (last :: parents)) = none) :
    Within (KeepsApart known) (loadSubmodule run last parents) := by
  intro s hs hknown
  have hplaces : KeepsApart known s ((placesOf? parents).on s).2 := fun hs _ =>
    (repaths_placesOf? parents s).apart hs
  refine related_bind hplaces (fun places? t hfound => ?_) hs hknown
  cases places? with
  | none => exact refl_of (KeepsApart known) t
  | some places =>
    have hpackage := ownModule?_of_placesOf? hs hfound
    exact within_bind (keepsApart_loadAlong hrun hname _ _ places) (fun address =>
      within_bind (keepsApart_bindSubmodule hpackage _ _) fun _ => within_pure address) t

omit hrun in
theorem keepsApart_unlessLoaded {name : Text} {load : Eval Nat}
    (h : ownModule? name = none → Within (KeepsApart known) load) :
    Within (KeepsApart known) (unlessLoaded name load) := by
  intro s
  refine related_bind (within_loadedAddress? name s) fun address? t hfound => ?_
  cases address? with
  | some address => exact refl_of (KeepsApart known) t
  | none => exact h (ownModule?_of_unloaded hfound) t

theorem keepsApart_loadModuleNamed (names : List Text) :
    Within (KeepsApart known) (loadModuleNamed run names) := by
  induction names with
  | nil => exact within_throw _
  | cons last parents ih =>
    cases parents with
    | nil =>
      rw [loadModuleNamed]
      exact keepsApart_unlessLoaded fun hname => within_bind within_get fun session =>
        keepsApart_loadAlong hrun hname [] last session.searchPath
    | cons parent rest =>
      rw [loadModuleNamed]
      · exact keepsApart_unlessLoaded fun hname => within_bind ih fun _ =>
          keepsApart_unlessLoaded fun _ => keepsApart_loadSubmodule hrun hname
      · exact List.cons_ne_nil parent rest

end

theorem keepsApart_importModule (fuel : Nat) (known : List Nat) (name : Text) :
    Within (KeepsApart known) (importModule fuel name) := by
  induction fuel generalizing known name with
  | zero => exact within_throw _
  | succ fuel ih =>
    exact keepsApart_loadModuleNamed (fun address => within_runFile (ih [address])) _

/-! ## Loads -/

/-- The module of an entry is none of the program's own. -/
theorem Entry.ownModule?_name (entry : Entry) : ownModule? entry.name = none := by
  have hfirst : ∀ known ∈ Export.moduleNames, known.toList.head? ≠ some '_' := by decide +kernel
  rw [ownModule?, Option.map_eq_none_iff, List.find?_eq_none]
  intro known hknown hname
  have hhead : entry.name.head? = (Text.ofString known).head? :=
    congrArg List.head? (of_decide_eq_true hname)
  have hmark : entry.name.head? = some (.char '_') := rfl
  rw [hmark, Text.ofString, Text.ofChars, List.head?_map] at hhead
  obtain ⟨c, hc, hsame⟩ := Option.map_eq_some_iff.mp hhead.symm
  cases hsame
  exact hfirst known hknown hc

theorem apart_loadEntry (hs : s.Apart) (entry : Entry) : ((loadEntry entry).on s).2.Apart := by
  obtain ⟨announced, hasked, hstart⟩ := on_startEntry entry s
  have hannounced := hs.asked hasked
  have hway := (forgets_makeWay entry announced).apart hannounced
  split at hstart
  · split at hstart
    · obtain ⟨failure, hstart⟩ := hstart
      rwa [(on_loadEntry_of_error hstart).1]
    · obtain ⟨address, t, packages, ht, -, hsize, hstart⟩ := hstart
      have haddress : Heap.firstNative < address := Nat.lt_of_lt_of_le hs.size hsize
      obtain ⟨hran, hload⟩ := on_loadEntry_of_ok hstart
      have himports := fun fuel => keepsApart_importModule fuel [address]
      have hstarted := (hway.asked ht).add haddress entry.ownModule?_name packages
      have hrun := within_runEntry entry address himports _ hstarted (by simpa using haddress)
      rw [hload, hran]
      exact (forgets_cleanUp s entry _).apart hrun
  · obtain ⟨failure, hstart⟩ := hstart
    rwa [(on_loadEntry_of_error hstart).1]

theorem Session.Apart.inside (hs : s.Apart) : s.inside.Apart :=
  { hs.allocate (.registry .empty) with }

theorem apart_collectSource (hs : s.Apart) (source : Text) (config : Config) (registry : Value) :
    ((collectSource source config registry).on s).2.Apart := by
  have hkept := readEntry_kept source config.entryFile s
  cases hread : (readEntry source config.entryFile).on s with
  | mk result t =>
    rw [hread] at hkept
    subst hkept
    cases result with
    | error failure => rwa [on_collectSource_of_error hread]
    | ok entry =>
      exact related_collectSource (R := KeepsApart []) registry hread (apart_loadEntry hs entry) nofun

/-- Whatever a load does, and however it ends, what every source shares stays as it is unless an
attribute of it is set. -/
theorem apart_loadStack (hs : s.Apart) (source : Text) (config : Config) :
    ((loadStack source config).on s).2.Apart := by
  have hcollected := apart_collectSource hs.inside source config (.ref s.heap.cells.size)
  exact related_loadStack (R := KeepsApart []) source config s rfl { hcollected with } nofun

end FunctionManifest
