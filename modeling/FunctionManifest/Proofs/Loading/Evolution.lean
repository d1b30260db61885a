import FunctionManifest.Loading.Import
import FunctionManifest.Proofs.Session.Declarations

/-!
# What a running source leaves

A source adds modules to those that are loaded and takes none away that was there. What is a module
stays one, and a registry only changes where a change is noted, to what the notes say. Objects that
are merely asked change no module at all.
-/

namespace FunctionManifest

def Cell.isModule : Cell → Bool
  | .module _ => true
  | _ => false

namespace Session

def HasModule (s : Session) (address : Nat) (attributes : Fields) : Prop :=
  s.heap.cells[address]? = some (.module attributes)

/-- What is at the address is a module. -/
def IsModule (s : Session) (address : Nat) : Prop := ∃ attributes, s.HasModule address attributes

/-- Whatever is loaded is a module, and so are the program's own. -/
structure Sound (s : Session) : Prop where
  loaded : ∀ entry ∈ s.loaded, s.IsModule entry.2
  own : ∀ name address, ownModule? name = some (.ref address) → s.IsModule address

/-- The modules that are loaded later are those of before, and modules under new names. -/
def Adds (s t : Session) : Prop :=
  ∃ added, t.loaded = s.loaded ++ added ∧
    ∀ entry ∈ added, entry.1 ∉ s.loaded.map (·.1) ∧ t.IsModule entry.2

/-- Each change of a registry is noted. -/
def Notes (s t : Session) : Prop :=
  ∃ changes, t.changes = s.changes ++ changes ∧
    ∀ address r, s.HasRegistry address r →
      (∀ change ∈ changes, change.address ≠ address) → t.HasRegistry address r

/-- What the whole of a load keeps to. -/
structure Continues (s t : Session) : Prop where
  project : t.project = s.project
  environment : t.environment = s.environment
  starting : t.starting = s.starting
  scopes : t.heap.scopes = s.heap.scopes
  modules : ∀ address, s.IsModule address → t.IsModule address
  notes : s.Notes t
  records : s.Records t

/-- What a part of a source can make of a session. -/
structure Evolves (s t : Session) : Prop extends Continues s t where
  searchPath : t.searchPath = s.searchPath
  adds : s.Adds t

theorem Adds.of_eq {s t : Session} (h : t.loaded = s.loaded) : s.Adds t :=
  ⟨[], by simpa using h, by simp⟩

theorem Adds.trans {s t u : Session} (h : s.Adds t) (h' : t.Adds u)
    (hmodules : ∀ address, t.IsModule address → u.IsModule address) : s.Adds u := by
  obtain ⟨added, hloaded, hnew⟩ := h
  obtain ⟨more, hloaded', hnew'⟩ := h'
  refine ⟨added ++ more, by rw [hloaded', hloaded, List.append_assoc], fun entry hentry => ?_⟩
  rcases List.mem_append.mp hentry with hentry | hentry
  · exact ⟨(hnew entry hentry).1, hmodules _ (hnew entry hentry).2⟩
  · refine ⟨fun hold => (hnew' entry hentry).1 ?_, (hnew' entry hentry).2⟩
    rw [hloaded, List.map_append]
    exact List.mem_append_left _ hold

theorem Notes.of_kept {s t : Session} (hchanges : t.changes = s.changes)
    (h : ∀ address r, s.HasRegistry address r → t.HasRegistry address r) : s.Notes t :=
  ⟨[], by simpa using hchanges, fun address r hr _ => h address r hr⟩

theorem Notes.trans {s t u : Session} (h : s.Notes t) (h' : t.Notes u) : s.Notes u := by
  obtain ⟨changes, hchanges, hkept⟩ := h
  obtain ⟨more, hmore, hkept'⟩ := h'
  refine ⟨changes ++ more, by rw [hmore, hchanges, List.append_assoc],
    fun address r hr hother => ?_⟩
  exact hkept' address r
    (hkept address r hr fun change hchange => hother change (List.mem_append_left _ hchange))
    fun change hchange => hother change (List.mem_append_right _ hchange)

theorem Continues.refl (s : Session) : s.Continues s where
  project := rfl
  environment := rfl
  starting := rfl
  scopes := rfl
  modules := fun _ h => h
  notes := .of_kept rfl fun _ _ h => h
  records := .of_kept rfl rfl (fun _ _ h => h) fun _ _ h => h

theorem Continues.trans {s t u : Session} (h : s.Continues t) (h' : t.Continues u) :
    s.Continues u where
  project := h'.project.trans h.project
  environment := h'.environment.trans h.environment
  starting := h'.starting.trans h.starting
  scopes := h'.scopes.trans h.scopes
  modules := fun address haddress => h'.modules address (h.modules address haddress)
  notes := h.notes.trans h'.notes
  records := h.records.trans h'.records

instance : IsPreorder Session Continues where
  refl := .refl
  trans _ _ _ := .trans

theorem Evolves.refl (s : Session) : s.Evolves s where
  toContinues := .refl s
  searchPath := rfl
  adds := .of_eq rfl

theorem Evolves.trans {s t u : Session} (h : s.Evolves t) (h' : t.Evolves u) : s.Evolves u where
  toContinues := h.toContinues.trans h'.toContinues
  searchPath := h'.searchPath.trans h.searchPath
  adds := h.adds.trans h'.adds h'.modules

/-- A sound session stays sound. -/
theorem Evolves.sound {s t : Session} (h : s.Evolves t) (hs : s.Sound) : t.Sound where
  loaded := by
    obtain ⟨added, hloaded, hnew⟩ := h.adds
    intro entry hentry
    rw [hloaded] at hentry
    rcases List.mem_append.mp hentry with hentry | hentry
    · exact h.modules _ (hs.loaded entry hentry)
    · exact (hnew entry hentry).2
  own := fun name address hown => h.modules address (hs.own name address hown)

/-- A process begins soundly. -/
theorem sound_fresh (project : Project) (environment : Environment) :
    (fresh project environment).Sound where
  loaded := nofun
  own := by
    have hmodules : ∀ known ∈ Export.moduleNames,
        Heap.initial.cells[Heap.firstModule + Export.moduleNames.idxOf known]?.any
          Cell.isModule := by decide +kernel
    intro name address hown
    obtain ⟨known, hfound, heq⟩ := Option.map_eq_some_iff.mp hown
    obtain ⟨cell, hcell, hmodule⟩ :=
      (Option.any_eq_true _ _).mp (hmodules known (List.mem_of_find?_eq_some hfound))
    cases heq
    cases cell with
    | module attributes => exact ⟨attributes, hcell⟩
    | _ => cases hmodule

/-! ## Changes of the heap -/

/-- Where objects are only added, everything evolves. -/
theorem Evolves.of_extends {s : Session} {heap : Heap} {log : List LogEntry}
    (hscopes : heap.scopes = s.heap.scopes)
    (h : ∀ (address : Nat) (cell : Cell), s.heap.cells[address]? = some cell →
      heap.cells[address]? = some cell) :
    s.Evolves { s with heap, log } where
  project := rfl
  environment := rfl
  searchPath := rfl
  starting := rfl
  scopes := hscopes
  modules := fun address ⟨attributes, hmodule⟩ => ⟨attributes, h address _ hmodule⟩
  adds := .of_eq rfl
  notes := .of_kept rfl fun address _ hr => h address _ hr
  records := .of_extends h

/-- What is no registry can be changed without a note, if it stays a module in case it is one, and
keeps its name as long as it is not noted that it gets one. -/
theorem Evolves.of_replace {s : Session} {address : Nat} {cell cell' : Cell}
    {settings : List (Nat × Text)}
    (hcell : s.heap.cells[address]? = some cell) (hregistry : ∀ r, cell ≠ .registry r)
    (hmodule : ∀ attributes, cell = .module attributes →
      ∃ attributes', cell' = .module attributes')
    (hname : ∀ name, cell.declaredName? = some name →
      (address, Text.ofString "name") ∉ settings → cell'.declaredName? = some name) :
    s.Evolves { s with
      heap := s.heap.replace address cell'
      settings := s.settings ++ settings } where
  project := rfl
  environment := rfl
  searchPath := rfl
  starting := rfl
  scopes := rfl
  modules := by
    rintro other ⟨attributes, hother⟩
    simp only [IsModule, HasModule, getElem?_replace]
    split
    · rename_i heq
      rw [HasModule, ← heq.1, hcell] at hother
      obtain ⟨attributes', rfl⟩ := hmodule attributes (Option.some.inj hother)
      exact ⟨attributes', rfl⟩
    · exact ⟨attributes, hother⟩
  adds := .of_eq rfl
  notes := .of_kept rfl fun other r hr => by
    rw [HasRegistry, getElem?_replace, if_neg]
    · exact hr
    · rintro ⟨rfl, -⟩
      exact hregistry r (Option.some.inj (hcell.symm.trans hr))
  records := .of_replace hcell hregistry hname

/-- What has no name has none to lose. -/
theorem Evolves.of_replace_unnamed {s : Session} {address : Nat} {cell cell' : Cell}
    (hcell : s.heap.cells[address]? = some cell) (hregistry : ∀ r, cell ≠ .registry r)
    (hmodule : ∀ attributes, cell = .module attributes →
      ∃ attributes', cell' = .module attributes')
    (hname : cell.declaredName? = none) :
    s.Evolves { s with heap := s.heap.replace address cell' } := by
  have h : s.Evolves { s with
      heap := s.heap.replace address cell'
      settings := s.settings ++ [] } :=
    .of_replace hcell hregistry hmodule fun name hown => by rw [hname] at hown; cases hown
  rwa [List.append_nil] at h

/-- A registry that changes with a note. -/
theorem Evolves.of_changed {s : Session} {address : Nat} {r r' : Registry Value}
    {declared : Option Declaration} (hr : s.HasRegistry address r)
    (hrecords : s.Records (s.changed address r' declared)) :
    s.Evolves (s.changed address r' declared) where
  project := rfl
  environment := rfl
  searchPath := rfl
  starting := rfl
  scopes := rfl
  modules := by
    rintro other ⟨attributes, hother⟩
    refine ⟨attributes, ?_⟩
    rw [HasModule, changed, getElem?_replace, if_neg]
    · exact hother
    · rintro ⟨rfl, -⟩
      cases hr.symm.trans hother
  adds := .of_eq rfl
  notes := by
    refine ⟨[⟨address, s.heap.scopes.current, declared⟩], rfl, fun other r hother hne => ?_⟩
    rw [HasRegistry, changed, getElem?_replace, if_neg fun heq => hne _ List.mem_cons_self heq.1]
    exact hother
  records := hrecords

theorem getElem?_allocate {heap : Heap} {address : Nat} {cell : Cell} (new : Cell)
    (h : heap.cells[address]? = some cell) :
    (heap.allocate new).2.cells[address]? = some cell := by
  obtain ⟨hlt, hget⟩ := Array.getElem?_eq_some_iff.mp h
  simp only [Heap.allocate, Array.getElem?_push]
  rw [if_neg (by omega)]
  exact h

/-- Setting an attribute makes no other kind of object. -/
theorem with_module {heap : Heap} {attributes : Fields} {cell : Cell} {name : Text} {v : Value}
    (h : (Cell.module attributes).with heap name v = .ok cell) :
    ∃ attributes', cell = .module attributes' := by
  cases h
  exact ⟨_, rfl⟩

theorem with_registry {heap : Heap} {r : Registry Value} {cell : Cell} {name : Text} {v : Value} :
    (Cell.registry r).with heap name v ≠ .ok cell := nofun

/-- Setting another attribute keeps the name. -/
theorem with_declaredName? {heap : Heap} {cell cell' : Cell} {name : Text} {v : Value} {own : Text}
    (h : cell.with heap name v = .ok cell') (hown : cell.declaredName? = some own)
    (hname : name ≠ Text.ofString "name") : cell'.declaredName? = some own := by
  have hspelled : name.spelled ≠ "name" := fun heq => hname (Text.eq_of_spelled heq (by decide))
  cases cell with
  | param p =>
    simp only [Cell.with] at h
    split at h
    · rename_i p' hp
      obtain rfl := Except.ok.inj h
      unfold Param.with? at hp
      grind [Cell.declaredName?]
    · cases h
  | secret s => simp [Cell.with, Secret.with?, hspelled] at h
  | _ => cases hown

instance : SettingFrame Evolves where
  refl := .refl
  trans _ _ _ := .trans
  allocates _ cell _ := .of_extends rfl fun _ _ h => getElem?_allocate cell h
  counts _ := .of_extends rfl fun _ _ h => h
  logs _ _ := .of_extends rfl fun _ _ h => h
  refills _ _ _ _ h := .of_replace_unnamed h nofun nofun rfl
  remaps _ _ _ _ h := .of_replace_unnamed h nofun nofun rfl
  declares _ _ _ _ _ h hregister := .of_changed h (.of_declares h hregister)
  clears _ _ _ h := .of_changed h (.of_clears h)
  sets s address cell cell' name v hcell hwith := by
    refine .of_replace hcell ?_ ?_ fun own hown hnot => with_declaredName? hwith hown ?_
    · rintro r rfl
      exact with_registry hwith
    · rintro attributes rfl
      exact with_module hwith
    · rintro rfl
      exact hnot List.mem_cons_self

/-! ## Modules that are left alone -/

/-- What asking objects can make of a session. -/
structure Leaves (s t : Session) : Prop extends Evolves s t where
  loaded : t.loaded = s.loaded
  attributes : ∀ address attributes, s.HasModule address attributes → t.HasModule address attributes

theorem Leaves.refl (s : Session) : s.Leaves s where
  toEvolves := .refl s
  loaded := rfl
  attributes := fun _ _ h => h

theorem Leaves.trans {s t u : Session} (h : s.Leaves t) (h' : t.Leaves u) : s.Leaves u where
  toEvolves := h.toEvolves.trans h'.toEvolves
  loaded := h'.loaded.trans h.loaded
  attributes := fun address attributes hmodule =>
    h'.attributes address attributes (h.attributes address attributes hmodule)

theorem Leaves.of_replace {s : Session} {address : Nat} {cell cell' : Cell}
    {changes : List RegistryChange} (hcell : s.heap.cells[address]? = some cell)
    (hmodule : ∀ attributes, cell ≠ .module attributes)
    (h : s.Evolves { s with heap := s.heap.replace address cell', changes }) :
    s.Leaves { s with heap := s.heap.replace address cell', changes } where
  toEvolves := h
  loaded := rfl
  attributes := by
    intro other attributes hother
    rw [HasModule, getElem?_replace, if_neg]
    · exact hother
    · rintro ⟨rfl, -⟩
      exact hmodule attributes (Option.some.inj (hcell.symm.trans hother))

instance : Frame Leaves where
  refl := .refl
  trans _ _ _ := .trans
  allocates s cell h := ⟨Frame.allocates s cell h, rfl, fun _ _ h => getElem?_allocate cell h⟩
  counts s := ⟨Frame.counts s, rfl, fun _ _ h => h⟩
  logs s entry := ⟨Frame.logs s entry, rfl, fun _ _ h => h⟩
  refills s address items items' h :=
    .of_replace h nofun (Frame.refills s address items items' h)
  remaps s address entries entries' h :=
    .of_replace h nofun (Frame.remaps s address entries entries' h)
  declares s address r r' v h hregister :=
    .of_replace h nofun (Frame.declares s address r r' v h hregister)
  clears s address r h := .of_replace h nofun (Frame.clears s address r h)

end Session

end FunctionManifest
