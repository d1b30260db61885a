import FunctionManifest.Proofs.Session.Within
import FunctionManifest.Proofs.Steps

/-!
# Declarations

A registry has what was declared in it last under each name since it was cleared, in the order of
these declarations, as long as no object gets another name in the meantime.
-/

namespace FunctionManifest

/-! ## What stands -/

/-- What a registry had, each entry with its name, and what became of it: at each step something
was declared, or the registry was cleared. -/
def replay (entries : List (Value × Text)) : List (Option (Value × Text)) → List (Value × Text)
  | [] => entries
  | some declared :: rest => replay (entries.filter (·.2 ≠ declared.2) ++ [declared]) rest
  | none :: rest => replay [] rest

/-- After this step a declaration is not there any more. -/
def overrides (declared : Value × Text) : Option (Value × Text) → Bool
  | some later => later.2 == declared.2
  | none => true

/-- The last declaration of each name, unless the registry was cleared afterwards. -/
def standing : List (Option (Value × Text)) → List (Value × Text)
  | [] => []
  | some declared :: rest =>
    if rest.any (overrides declared) then standing rest else declared :: standing rest
  | none :: rest => standing rest

theorem replay_eq (entries : List (Value × Text)) (history : List (Option (Value × Text))) :
    replay entries history =
      (entries.filter fun e => !history.any (overrides e)) ++ standing history := by
  induction history generalizing entries with
  | nil =>
    rw [replay, standing, List.append_nil]
    exact (List.filter_eq_self.mpr fun _ _ => rfl).symm
  | cons step rest ih =>
    cases step with
    | none => simp [replay, standing, overrides, ih]
    | some declared =>
      rw [replay, ih, List.filter_append, List.filter_filter, standing]
      have hfilter : (fun e : Value × Text => !rest.any (overrides e) && decide (e.2 ≠ declared.2)) =
          fun e => !(some declared :: rest).any (overrides e) := by
        funext e
        by_cases hname : e.2 = declared.2 <;> simp [overrides, hname, Ne.symm]
      rw [hfilter, List.append_assoc]
      congr 1
      by_cases hover : rest.any (overrides declared) <;> simp [hover]

theorem mem_standing {history : List (Option (Value × Text))} {e : Value × Text}
    (h : e ∈ standing history) : some e ∈ history := by
  induction history with
  | nil => simp [standing] at h
  | cons step rest ih =>
    cases step with
    | none => exact List.mem_cons_of_mem _ (ih h)
    | some declared =>
      unfold standing at h
      split at h
      · exact List.mem_cons_of_mem _ (ih h)
      · rcases List.mem_cons.mp h with rfl | h
        · exact List.mem_cons_self
        · exact List.mem_cons_of_mem _ (ih h)

/-- No two declarations that stand have one name. -/
theorem nodup_standing (history : List (Option (Value × Text))) :
    ((standing history).map Prod.snd).Nodup := by
  induction history with
  | nil => simp [standing]
  | cons step rest ih =>
    cases step with
    | none => exact ih
    | some declared =>
      unfold standing
      split
      · exact ih
      · rename_i hlast
        refine List.nodup_cons.mpr ⟨fun hmem => hlast ?_, ih⟩
        obtain ⟨later, hlater, hname⟩ := List.mem_map.mp hmem
        exact List.any_eq_true.mpr ⟨some later, mem_standing hlater, by simp [overrides, hname]⟩

theorem mem_replay {entries : List (Value × Text)} {history : List (Option (Value × Text))}
    {e : Value × Text} (h : e ∈ replay entries history) : e ∈ entries ∨ some e ∈ history := by
  rw [replay_eq] at h
  exact (List.mem_append.mp h).imp (fun hkept => (List.mem_filter.mp hkept).1) mem_standing

/-! ## Names -/

theorem Value.text?_eq_some {v : Value} {t : Text} (h : v.text? = some t) : v = .text t := by
  cases v with
  | text => exact congrArg Value.text (Option.some.inj h)
  | _ => cases h

/-- Only a text that has halves is spelled like another one. -/
theorem Text.eq_of_spelled {text : Text} {s : String} (h : text.spelled = s)
    (hchars : s.toList.all (· ≠ '\ufffd')) : text = Text.ofString s := by
  have hs : s.toList = text.map Letter.nearest := by simp [← h, spelled]
  rw [ofString, ofChars, hs, List.map_map]
  refine (List.map_id text).symm.trans (List.map_congr_left fun letter hletter => ?_)
  cases letter with
  | char c => rfl
  | half offset =>
    rw [hs, List.all_map, List.all_eq_true] at hchars
    simpa [Letter.nearest] using hchars _ hletter

theorem Heap.declaredName?_eq_some {heap : Heap} {v : Value} {name : Text}
    (h : heap.declaredName? v = some name) :
    ∃ address cell, v = .ref address ∧ heap.cells[address]? = some cell ∧
      cell.declaredName? = some name := by
  obtain ⟨cell, hcell, hname⟩ := Option.bind_eq_some_iff.mp h
  cases v with
  | ref address => exact ⟨address, cell, rfl, hcell, hname⟩
  | _ => cases hcell

/-- Params and secrets go by the name that they have. -/
theorem Heap.nameOf_of_declared {heap : Heap} {v : Value} {name : Text}
    (h : heap.declaredName? v = some name) : heap.nameOf v = .ok (.text name) := by
  have hspelled : (Text.ofString "name").spelled = "name" := by decide
  obtain ⟨cell, hcell, hname⟩ := Option.bind_eq_some_iff.mp h
  cases cell with
  | param p =>
    simp [nameOf, memberName, stored?, hcell, Cell.stored?, Cell.attributes, Assoc.get?,
      Assoc.lookBy, Cell.fixed?, hspelled, Param.stored?, Value.text?_eq_some hname]
  | secret s =>
    simp [nameOf, memberName, stored?, hcell, Cell.stored?, Cell.attributes, Assoc.get?,
      Assoc.lookBy, Cell.fixed?, hspelled, Secret.stored?, Value.text?_eq_some hname]
  | _ => cases hname

theorem Heap.sameName_of_declared {heap : Heap} {v w : Value} {name other : Text}
    (h : heap.declaredName? v = some name) (h' : heap.declaredName? w = some other) :
    heap.sameName v w = .ok (name == other) := by
  rw [sameName, nameOf_of_declared h, nameOf_of_declared h']
  rfl

/-- Declaring a name drops the entry that had it. -/
theorem Registry.register_of_declared {heap : Heap} {entries : List (Value × Text)}
    {declared : Value × Text} (h : ∀ e ∈ entries, heap.declaredName? e.1 = some e.2)
    (hdeclared : heap.declaredName? declared.1 = some declared.2) :
    (⟨entries.map Prod.fst⟩ : Registry Value).register heap.sameName declared.1 =
      .ok ⟨(entries.filter (·.2 ≠ declared.2) ++ [declared]).map Prod.fst⟩ := by
  have hothers : ((entries.map Prod.fst).filterM fun other => do
      return !(← heap.sameName other declared.1)) =
        .ok ((entries.map Prod.fst).filter fun v => heap.declaredName? v ≠ some declared.2) := by
    refine filterM_of_ok fun v hv => ?_
    obtain ⟨e, he, rfl⟩ := List.mem_map.mp hv
    rw [Heap.sameName_of_declared (h e he) hdeclared, h e he]
    by_cases hsame : e.2 = declared.2 <;> simp [hsame, bind, Except.bind, pure, Except.pure]
  have hnames : ∀ e ∈ entries, (heap.declaredName? e.1 ≠ some declared.2 ↔ e.2 ≠ declared.2) :=
    fun e he => by rw [h e he, ne_eq, Option.some.injEq]
  rw [register, hothers, List.filter_map]
  simp only [bind, Except.bind, pure, Except.pure, Function.comp_def, List.map_append,
    List.map_cons, List.map_nil, Except.ok.injEq, Registry.mk.injEq, List.append_cancel_right_eq]
  congr 1
  exact List.filter_congr fun e he => decide_eq_decide.mpr (hnames e he)

/-! ## Sessions -/

theorem getElem?_replace (heap : Heap) (address other : Nat) (cell : Cell) :
    (heap.replace address cell).cells[other]? =
      if address = other ∧ address < heap.cells.size then some cell else heap.cells[other]? := by
  simp only [Heap.replace, Array.getElem?_setIfInBounds]
  grind

namespace Session

def HasRegistry (s : Session) (address : Nat) (r : Registry Value) : Prop :=
  s.heap.cells[address]? = some (.registry r)

/-- The object got a name. -/
def Renames (settings : List (Nat × Text)) (v : Value) : Prop :=
  ∃ address, v = .ref address ∧ (address, Text.ofString "name") ∈ settings

instance (settings : List (Nat × Text)) (v : Value) : Decidable (Renames settings v) :=
  decidable_of_iff ((match v with
    | .ref address => decide ((address, Text.ofString "name") ∈ settings)
    | _ => false) = true) <| by
    unfold Renames
    split <;> simp_all

/-- What was declared in a registry, and where it was cleared. -/
def historyAt (address : Nat) (changes : List RegistryChange) : List (Option Declaration) :=
  (changes.filter (·.address = address)).map (·.declared)

/-- These were params and secrets with texts for names. -/
def Named (declared : List (Option Declaration)) (history : List (Option (Value × Text))) : Prop :=
  declared = history.map (Option.map fun d => ⟨d.1, some d.2⟩)

/-- These changes and settings determine what a registry has, as long as no object that was declared
in it got another name. -/
structure Recorded (heap heap' : Heap) (changes : List RegistryChange)
    (settings : List (Nat × Text)) : Prop where
  names : ∀ v name, heap.declaredName? v = some name → ¬Renames settings v →
    heap'.declaredName? v = some name
  registries : ∀ (address : Nat) (entries : List (Value × Text)) (history : List (Option _)),
    heap.cells[address]? = some (.registry ⟨entries.map Prod.fst⟩) →
    (∀ e ∈ entries, heap.declaredName? e.1 = some e.2) →
    Named (historyAt address changes) history →
    (∀ e, e ∈ entries ∨ some e ∈ history → ¬Renames settings e.1) →
    heap'.cells[address]? = some (.registry ⟨(replay entries history).map Prod.fst⟩) ∧
      ∀ e ∈ replay entries history, heap'.declaredName? e.1 = some e.2

/-- Declarations are noted, and so are the names that are given to objects. -/
def Records (s t : Session) : Prop :=
  ∃ changes settings, t.changes = s.changes ++ changes ∧ t.settings = s.settings ++ settings ∧
    Recorded s.heap t.heap changes settings

variable {s t u : Session}

theorem Records.of_kept (hchanges : t.changes = s.changes) (hsettings : t.settings = s.settings)
    (hnames : ∀ v name, s.heap.declaredName? v = some name → t.heap.declaredName? v = some name)
    (hregistries : ∀ address r, s.HasRegistry address r → t.HasRegistry address r) :
    s.Records t := by
  refine ⟨[], [], by simpa using hchanges, by simpa using hsettings,
    ⟨fun v name h _ => hnames v name h, fun address entries history hr hentries hhistory _ => ?_⟩⟩
  obtain rfl : history = [] := List.map_eq_nil_iff.mp hhistory.symm
  exact ⟨hregistries _ _ hr, fun e he => hnames _ _ (hentries e he)⟩

theorem replay_append (entries : List (Value × Text)) (history later : List (Option (Value × Text))) :
    replay entries (history ++ later) = replay (replay entries history) later := by
  induction history generalizing entries with
  | nil => rfl
  | cons step rest ih => cases step <;> exact ih _

theorem Records.trans (h : s.Records t) (h' : t.Records u) : s.Records u := by
  obtain ⟨changes, settings, hchanges, hsettings, h⟩ := h
  obtain ⟨more, moreSettings, hmore, hmoreSettings, h'⟩ := h'
  have hrenames : ∀ {v}, ¬Renames (settings ++ moreSettings) v →
      ¬Renames settings v ∧ ¬Renames moreSettings v := fun {v} hnot =>
    ⟨fun ⟨address, hv, hmem⟩ => hnot ⟨address, hv, List.mem_append_left _ hmem⟩,
      fun ⟨address, hv, hmem⟩ => hnot ⟨address, hv, List.mem_append_right _ hmem⟩⟩
  refine ⟨changes ++ more, settings ++ moreSettings, by rw [hmore, hchanges, List.append_assoc],
    by rw [hmoreSettings, hsettings, List.append_assoc], ⟨?_, ?_⟩⟩
  · intro v name hv hnot
    exact h'.names v name (h.names v name hv (hrenames hnot).1) (hrenames hnot).2
  · intro address entries history hr hentries hhistory hnot
    rw [Named, historyAt, List.filter_append, List.map_append] at hhistory
    obtain ⟨first, later, rfl, hfirst, hlater⟩ := List.map_eq_append_iff.mp hhistory.symm
    have hfirstNot : ∀ e, e ∈ entries ∨ some e ∈ first → ¬Renames settings e.1 := fun e he =>
      (hrenames (hnot e (he.imp_right (List.mem_append_left _)))).1
    obtain ⟨hmid, hmidNames⟩ := h.registries address entries first hr hentries hfirst.symm hfirstNot
    rw [replay_append]
    refine h'.registries address _ later hmid hmidNames hlater.symm fun e he => ?_
    refine (hrenames (hnot e ?_)).2
    rcases he with he | he
    · exact (mem_replay he).imp_right (List.mem_append_left _)
    · exact .inr (List.mem_append_right _ he)

/-! ## Small steps -/

/-- Where objects are only added, nothing has to be noted. -/
theorem Records.of_extends {heap : Heap} {log : List LogEntry}
    (h : ∀ (address : Nat) (cell : Cell), s.heap.cells[address]? = some cell →
      heap.cells[address]? = some cell) :
    s.Records { s with heap, log } := by
  refine .of_kept rfl rfl (fun v name hv => ?_) fun address r hr => h address _ hr
  obtain ⟨address, cell, rfl, hcell, hname⟩ := Heap.declaredName?_eq_some hv
  exact Option.bind_eq_some_iff.mpr ⟨cell, h address cell hcell, hname⟩

/-- An object that is no registry changes. If it gets another name, this is noted. -/
theorem Records.of_replace {address : Nat} {cell cell' : Cell} {settings : List (Nat × Text)}
    (hcell : s.heap.cells[address]? = some cell) (hregistry : ∀ r, cell ≠ .registry r)
    (hname : ∀ name, cell.declaredName? = some name →
      (address, Text.ofString "name") ∉ settings → cell'.declaredName? = some name) :
    s.Records { s with
      heap := s.heap.replace address cell'
      settings := s.settings ++ settings } := by
  have hnames : ∀ v name, s.heap.declaredName? v = some name → ¬Renames settings v →
      (s.heap.replace address cell').declaredName? v = some name := by
    intro v name hv hnot
    obtain ⟨other, old, rfl, hold, holdName⟩ := Heap.declaredName?_eq_some hv
    simp only [Heap.declaredName?, Heap.cell?, getElem?_replace]
    split
    · rename_i hsame
      obtain ⟨rfl, -⟩ := hsame
      rw [hcell, Option.some.injEq] at hold
      exact hname name (hold ▸ holdName) fun hmem => hnot ⟨address, rfl, hmem⟩
    · exact Option.bind_eq_some_iff.mpr ⟨old, hold, holdName⟩
  refine ⟨[], settings, (List.append_nil _).symm, rfl, ⟨hnames, ?_⟩⟩
  intro other entries history hr hentries hhistory hnot
  obtain rfl : history = [] := List.map_eq_nil_iff.mp hhistory.symm
  refine ⟨?_, fun e he => hnames _ _ (hentries e he) (hnot e (.inl he))⟩
  simp only [getElem?_replace]
  split
  · rename_i hsame
    obtain ⟨rfl, -⟩ := hsame
    exact absurd (Option.some.inj (hcell.symm.trans hr)) (hregistry _)
  · exact hr

/-- A registry changes with a note. -/
theorem Records.of_changed {address : Nat} {r r' : Registry Value} {declared : Option Declaration}
    (hr : s.HasRegistry address r)
    (h : ∀ entries history, r = ⟨entries.map Prod.fst⟩ →
      (∀ e ∈ entries, s.heap.declaredName? e.1 = some e.2) → Named [declared] history →
      r' = ⟨(replay entries history).map Prod.fst⟩ ∧
        ∀ e ∈ replay entries history, s.heap.declaredName? e.1 = some e.2) :
    s.Records (s.changed address r' declared) := by
  have hnames : ∀ v name, s.heap.declaredName? v = some name →
      (s.changed address r' declared).heap.declaredName? v = some name := by
    intro v name hv
    obtain ⟨other, old, rfl, hold, holdName⟩ := Heap.declaredName?_eq_some hv
    simp only [changed, Heap.declaredName?, Heap.cell?, getElem?_replace]
    split
    · rename_i hsame
      obtain ⟨rfl, -⟩ := hsame
      rw [hr, Option.some.injEq] at hold
      rw [← hold] at holdName
      cases holdName
    · exact Option.bind_eq_some_iff.mpr ⟨old, hold, holdName⟩
  refine ⟨[⟨address, s.heap.scopes.current, declared⟩], [], rfl, (List.append_nil _).symm,
    ⟨fun v name hv _ => hnames v name hv, ?_⟩⟩
  intro other entries history hother hentries hhistory _
  by_cases hsame : address = other
  · subst hsame
    have hat : historyAt address [⟨address, s.heap.scopes.current, declared⟩] = [declared] := by
      simp [historyAt]
    rw [hat] at hhistory
    obtain ⟨rfl, hreplay⟩ := h entries history
      (Cell.registry.inj (Option.some.inj (hr.symm.trans hother))) hentries hhistory
    refine ⟨?_, fun e he => hnames _ _ (hreplay e he)⟩
    have hlt := (Array.getElem?_eq_some_iff.mp hr).1
    simp [changed, getElem?_replace, hlt]
  · have hnone : historyAt other [⟨address, s.heap.scopes.current, declared⟩] = [] := by
      simp [historyAt, hsame]
    rw [Named, hnone] at hhistory
    obtain rfl : history = [] := List.map_eq_nil_iff.mp hhistory.symm
    refine ⟨?_, fun e he => hnames _ _ (hentries e he)⟩
    simp only [changed, getElem?_replace]
    rw [if_neg fun heq => hsame heq.1]
    exact hother

theorem Records.of_declares {address : Nat} {r r' : Registry Value} {v : Value}
    (hr : s.HasRegistry address r) (hregister : r.register s.heap.sameName v = .ok r') :
    s.Records (s.changed address r' (some ⟨v, s.heap.declaredName? v⟩)) := by
  refine .of_changed hr fun entries history hentries hnames hhistory => ?_
  obtain ⟨step, rest, rfl, hstep, hrest⟩ := List.map_eq_cons_iff.mp hhistory.symm
  obtain rfl := List.map_eq_nil_iff.mp hrest
  obtain ⟨declared, rfl, hdeclared⟩ := Option.map_eq_some_iff.mp hstep
  obtain ⟨rfl, hname⟩ := Declaration.mk.inj hdeclared
  rw [hentries, Registry.register_of_declared hnames hname.symm, Except.ok.injEq] at hregister
  refine ⟨hregister.symm, fun e he => ?_⟩
  rcases List.mem_append.mp he with he | he
  · exact hnames e (List.mem_filter.mp he).1
  · rw [List.mem_singleton.mp he, hname]

theorem Records.of_clears {address : Nat} {r : Registry Value} (hr : s.HasRegistry address r) :
    s.Records (s.changed address r.clear none) := by
  refine .of_changed hr fun entries history _ _ hhistory => ?_
  obtain ⟨step, rest, rfl, hstep, hrest⟩ := List.map_eq_cons_iff.mp hhistory.symm
  obtain rfl := List.map_eq_nil_iff.mp hrest
  obtain rfl := Option.map_eq_none_iff.mp hstep
  exact ⟨rfl, nofun⟩

/-- What a new registry has in the end is what stands of its history. -/
theorem Recorded.contents {heap heap' : Heap} {changes : List RegistryChange}
    {settings : List (Nat × Text)} (h : Recorded heap heap' changes settings) {address : Nat}
    (hr : heap.cells[address]? = some (.registry .empty)) {history : List (Option (Value × Text))}
    (hhistory : Named (historyAt address changes) history)
    (hnot : ∀ e, some e ∈ history → ¬Renames settings e.1) :
    heap'.cells[address]? = some (.registry ⟨(standing history).map Prod.fst⟩) ∧
      ∀ e ∈ standing history, heap'.declaredName? e.1 = some e.2 := by
  have hreplay : replay [] history = standing history := replay_eq [] history
  rw [← hreplay]
  exact h.registries address [] history hr nofun hhistory fun e he => hnot e (he.resolve_left nofun)

end Session

end FunctionManifest
