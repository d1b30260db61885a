import FunctionManifest.Proofs.Discovery.Reached

/-!
# What a walk finds

The fuel of a walk is never used up. If all members can be read, a walk finds what it reaches, up to
the first function whose name has a dash.
-/

namespace FunctionManifest

namespace Walk

theorem visitAll_congr {visit visit' : Text → Value → Walk} {members : List Member}
    (h : ∀ name v, .found name v ∈ members → visit name v = visit' name v) :
    visitAll visit members = visitAll visit' members := by
  induction members with
  | nil => rfl
  | cons member rest ih =>
    cases member with
    | absent failure => rfl
    | found name v =>
      simp only [visitAll]
      rw [h name v List.mem_cons_self, ih fun name v hv => h name v (List.mem_cons_of_mem _ hv)]

theorem andThen_stop_none {walk : Walk} {next : Unit → Walk}
    (h : (walk.andThen next).stop = none) : walk.stop = none ∧ (next ()).stop = none := by
  unfold andThen at h
  split at h
  · simp_all
  · exact ⟨‹_›, h⟩

/-- A walk that nothing ended came through every member. -/
theorem visitAll_stop_none {visit : Text → Value → Walk} {members : List Member}
    (h : (visitAll visit members).stop = none) :
    ∀ m ∈ members, ∃ name v, m = .found name v ∧ (visit name v).stop = none := by
  induction members with
  | nil => simp
  | cons member rest ih =>
    cases member with
    | absent failure => cases h
    | found name v =>
      obtain ⟨hfirst, hrest⟩ := andThen_stop_none h
      exact List.forall_mem_cons.mpr ⟨⟨name, v, rfl, hfirst⟩, ih hrest⟩

/-- What a walk finds it found at one of the members. -/
theorem forall_found_visitAll {visit : Text → Value → Walk} {p : Found → Prop}
    (h : ∀ name v, ∀ f ∈ (visit name v).found, p f) (members : List Member) :
    ∀ f ∈ (visitAll visit members).found, p f := by
  induction members with
  | nil => exact nofun
  | cons member rest ih =>
    cases member with
    | absent failure => exact nofun
    | found name v =>
      intro f hf
      rw [visitAll, andThen] at hf
      split at hf
      · exact h name v f hf
      · rcases List.mem_append.mp hf with hf | hf
        · exact h name v f hf
        · exact ih f hf

end Walk

namespace Heap

/-! ## Functions -/

/-- What a walk finds is functions, with their parts. -/
theorem cell?_of_found {heap : Heap} {project : Project} {root : Root} {fuel : Nat} {way : Way}
    {v : Value} : ∀ f ∈ (heap.walk project root fuel way v).found,
      heap.cell? f.function = some (.function f.parts) := by
  induction fuel generalizing way v with
  | zero => exact nofun
  | succ fuel ih =>
    rw [walk]
    refine Walk.forall_found_visitAll (fun name member f hf => ?_) _
    split at hf
    · rename_i parts hcell
      unfold findFunction at hf
      split at hf
      · cases hf
      · rw [List.mem_singleton.mp hf]
        exact hcell
    · split at hf
      · cases hf
      · cases hf
      · split at hf
        · cases hf
        · exact ih f hf

theorem cell?_of_discovered {heap : Heap} {project : Project} {groups : Text} {v : Value} :
    ∀ f ∈ (heap.discover project groups v).found,
      heap.cell? f.function = some (.function f.parts) := by
  unfold discover
  split
  · exact nofun
  · exact cell?_of_found

/-! ## Fuel -/

variable {heap : Heap} {project : Project} {root : Root}

/-- A walk goes no deeper than there are objects that it can still enter. -/
theorem walk_fuel {fuel fuel' : Nat} {way : Way} {v : Value}
    (h : heap.unvisited way.ancestors < fuel) (h' : heap.unvisited way.ancestors < fuel') :
    heap.walk project root fuel way v = heap.walk project root fuel' way v := by
  induction fuel generalizing fuel' way v with
  | zero => omega
  | succ fuel ih =>
    obtain _ | fuel' := fuel'
    · omega
    unfold walk
    apply Walk.visitAll_congr
    intro name member _
    split
    · rfl
    · split
      · rfl
      · rfl
      · rename_i address hgroup
        split
        · rfl
        · have hlt := unvisited_cons_lt (group?_lt_size hgroup).2 ‹_›
          exact ih (by simp only [Way.enter]; omega) (by simp only [Way.enter]; omega)

end Heap

/-! ## Up to the first dash -/

/-- What is noted of a function that is reached. -/
def Reached.found (before : Text) (r : Reached) : Found :=
  ⟨r.path.key before, r.function, r.parts⟩

/-- The failure of a function whose name has a dash. -/
def Reached.refusal (before : Text) (r : Reached) : Failure :=
  .ofDashedName r.path.last.name (r.path.groupText before)

/-- What is reached, up to the first function whose name has a dash. -/
def Walk.ofReached (before : Text) : List Reached → Walk
  | [] => .nothing
  | r :: rest =>
    if r.path.IsDashed then .stopped (r.refusal before)
    else ⟨r.found before :: (ofReached before rest).found, (ofReached before rest).stop⟩

namespace Walk

theorem ofReached_append (before : Text) (l l' : List Reached) :
    ofReached before (l ++ l') = (ofReached before l).andThen fun _ => ofReached before l' := by
  induction l with
  | nil => rfl
  | cons r rest ih =>
    simp only [List.cons_append, ofReached, ih]
    split
    · rfl
    · unfold andThen
      cases h : (ofReached before rest).stop <;> simp [h]

theorem ofReached_through (before : Text) (step : Step) (l : List Reached) :
    ofReached before (l.map (Reached.through step)) =
      ofReached (before ++ step.name ++ "-") l := by
  induction l with
  | nil => rfl
  | cons r rest ih =>
    simp only [List.map_cons, ofReached, ih]
    simp [Reached.through, Reached.refusal, Reached.found]

theorem ofReached_function (way : Way) (place : Nat) (name : Text) (function : Value)
    (parts : CloudFunction) :
    ofReached way.groups [⟨⟨[], ⟨place, name⟩⟩, function, parts⟩] =
      findFunction way name function parts := by
  simp [ofReached, findFunction, MemberPath.IsDashed, Reached.refusal, Reached.found,
    MemberPath.groupText, nothing]

/-- A walk is ended by the first function whose name has a dash, if there is one. -/
theorem ofReached_stop (before : Text) (l : List Reached) :
    (ofReached before l).stop = (l.find? (·.path.IsDashed)).map (Reached.refusal before) := by
  induction l with
  | nil => rfl
  | cons r rest ih =>
    simp only [ofReached, List.find?_cons]
    by_cases h : r.path.IsDashed <;> simp [h, ih, stopped]

theorem ofReached_stop_of_clean {before : Text} {l : List Reached}
    (h : ∀ r ∈ l, ¬ r.path.IsDashed) : (ofReached before l).stop = none := by
  rw [ofReached_stop, Option.map_eq_none_iff, List.find?_eq_none]
  simpa using h

theorem mem_of_ofReached_found {before : Text} {l : List Reached} {f : Found}
    (h : f ∈ (ofReached before l).found) : ∃ r ∈ l, r.found before = f := by
  induction l with
  | nil => simp [ofReached, nothing] at h
  | cons r rest ih =>
    unfold ofReached at h
    split at h
    · simp [stopped] at h
    · rcases List.mem_cons.mp h with rfl | h
      · exact ⟨r, List.mem_cons_self, rfl⟩
      · obtain ⟨r', hr', rfl⟩ := ih h
        exact ⟨r', List.mem_cons_of_mem _ hr', rfl⟩

theorem ofReached_found {before : Text} {l : List Reached} (h : ∀ r ∈ l, ¬ r.path.IsDashed) :
    (ofReached before l).found = l.map (Reached.found before) := by
  induction l with
  | nil => rfl
  | cons r rest ih =>
    rw [ofReached, if_neg (h r List.mem_cons_self), List.map_cons,
      ih fun r hr => h r (List.mem_cons_of_mem _ hr)]

end Walk

namespace Heap

/-- Whatever is looked into can be read: the members are there, and which of them are groups can
be told. -/
structure Readable (heap : Heap) (project : Project) (root : Root) (ancestors : List Nat)
    (v : Value) : Prop where
  found : ∀ before w, heap.Visits project root ancestors v before w →
    ∀ m ∈ heap.members w, ∃ name member, m = .found name member
  decided : ∀ before w, heap.Visits project root ancestors v before w →
    ∀ name member, .found name member ∈ heap.members w →
      ∃ group, heap.group? project root member = .ok group

variable {heap : Heap} {project : Project} {root : Root}

/-- What is visited from a group is visited from where the group was found. -/
theorem Visits.of_group {ancestors before : List Nat} {v member w : Value} {name : Text}
    {address : Nat} (hmem : .found name member ∈ heap.members v)
    (hgroup : heap.group? project root member = .ok (some address)) (hnew : address ∉ ancestors)
    (h : heap.Visits project root (address :: ancestors) member before w) :
    heap.Visits project root ancestors v before w := by
  induction h with
  | start => exact .group .start hmem hgroup hnew
  | group _ hmem hgroup hnew ih => exact .group ih hmem hgroup hnew

theorem Readable.of_group {ancestors : List Nat} {v member : Value} {name : Text} {address : Nat}
    (h : heap.Readable project root ancestors v) (hmem : .found name member ∈ heap.members v)
    (hgroup : heap.group? project root member = .ok (some address)) (hnew : address ∉ ancestors) :
    heap.Readable project root (address :: ancestors) member where
  found before w hw := h.found before w (hw.of_group hmem hgroup hnew)
  decided before w hw := h.decided before w (hw.of_group hmem hgroup hnew)

/-- Visiting the members one by one is going through what is reached below each of them. -/
theorem visitAll_eq_ofReached {visit : Text → Value → Walk}
    {below : Step → Value → List Reached} {before : Text} {members : List Member}
    (hfound : ∀ m ∈ members, ∃ name member, m = .found name member)
    (hvisit : ∀ place name member, .found name member ∈ members →
      visit name member = .ofReached before (below ⟨place, name⟩ member)) (k : Nat) :
    Walk.visitAll visit members = .ofReached before ((members.zipIdx k).flatMap fun
      | (.found name member, place) => below ⟨place, name⟩ member
      | (.absent _, _) => []) := by
  induction members generalizing k with
  | nil => rfl
  | cons m rest ih =>
    obtain ⟨name, member, rfl⟩ := hfound m List.mem_cons_self
    rw [List.zipIdx_cons, List.flatMap_cons, Walk.ofReached_append, Walk.visitAll,
      hvisit k name member List.mem_cons_self,
      ih (fun m hm => hfound m (List.mem_cons_of_mem _ hm))
        (fun place name member hm => hvisit place name member (List.mem_cons_of_mem _ hm))]

/-- A walk that can read everything finds what it reaches, up to the first dash. -/
theorem walk_eq_ofReached {fuel : Nat} {way : Way} {v : Value}
    (h : heap.Readable project root way.ancestors v) :
    heap.walk project root fuel way v =
      .ofReached way.groups (heap.reachedFrom project root fuel way.ancestors v) := by
  induction fuel generalizing way v with
  | zero => rfl
  | succ fuel ih =>
    unfold walk reachedFrom
    refine visitAll_eq_ofReached (h.found _ _ .start) ?_ 0
    intro place name member hmem
    split
    · rename_i f hcell
      rw [reachedAt_of_function hcell, Walk.ofReached_function]
    · rename_i hcell
      obtain ⟨group, hgroup⟩ := h.decided _ _ .start name member hmem
      rw [hgroup]
      cases group with
      | none => rw [reachedAt_of_none (by simpa using hcell) (by simp [hgroup])]; rfl
      | some address =>
        rw [reachedAt_of_group hgroup, Walk.ofReached_through]
        simp only
        split
        · rfl
        · exact ih (h.of_group hmem hgroup ‹_›)

/-! ## Walks that nothing ended -/

/-- A walk that nothing ended could go into every group. -/
theorem walk_stop_of_group {fuel : Nat} {way : Way} {v member : Value} {name : Text}
    {address : Nat} (h : (heap.walk project root (fuel + 1) way v).stop = none)
    (hmem : .found name member ∈ heap.members v)
    (hgroup : heap.group? project root member = .ok (some address))
    (hnew : address ∉ way.ancestors) :
    (heap.walk project root fuel (way.enter name address) member).stop = none := by
  unfold walk at h
  obtain ⟨_, _, heq, hvisit⟩ := Walk.visitAll_stop_none h _ hmem
  cases heq
  simp only [hgroup, if_neg hnew] at hvisit
  split at hvisit
  · rename_i f hcell
    rw [group?_of_function hcell] at hgroup
    cases hgroup
  · exact hvisit

theorem Visits.walk_stop {way : Way} {before : List Nat} {v w : Value}
    (hstop : (heap.walk project root (heap.cells.size + 1) way v).stop = none)
    (h : heap.Visits project root way.ancestors v before w) :
    ∃ way' : Way, way'.ancestors = before ∧
      (heap.walk project root (heap.cells.size + 1) way' w).stop = none := by
  induction h with
  | start => exact ⟨way, rfl, hstop⟩
  | @group before w name member address _ hmem hgroup hnew ih =>
    obtain ⟨way', rfl, hway'⟩ := ih
    refine ⟨way'.enter name address, rfl, ?_⟩
    have hlt := unvisited_cons_lt (group?_lt_size hgroup).2 hnew
    have hle := heap.unvisited_le_size way'.ancestors
    have hfuel : heap.walk project root (heap.cells.size + 1) (way'.enter name address) member =
        heap.walk project root heap.cells.size (way'.enter name address) member :=
      walk_fuel (by simp only [Way.enter]; omega) (by simp only [Way.enter]; omega)
    rw [hfuel]
    exact walk_stop_of_group hway' hmem hgroup hnew

theorem Readable.of_walk_stop {way : Way} {v : Value}
    (hstop : (heap.walk project root (heap.cells.size + 1) way v).stop = none) :
    heap.Readable project root way.ancestors v where
  found before w hw m hm := by
    obtain ⟨way', -, hway'⟩ := hw.walk_stop hstop
    unfold walk at hway'
    obtain ⟨name, member, hfound, -⟩ := Walk.visitAll_stop_none hway' m hm
    exact ⟨name, member, hfound⟩
  decided before w hw name member hmem := by
    obtain ⟨way', -, hway'⟩ := hw.walk_stop hstop
    unfold walk at hway'
    obtain ⟨_, _, heq, hvisit⟩ := Walk.visitAll_stop_none hway' _ hmem
    cases heq
    split at hvisit
    · exact ⟨none, group?_of_function ‹_›⟩
    · split at hvisit
      · cases hvisit
      all_goals exact ⟨_, ‹_›⟩

end Heap

end FunctionManifest
