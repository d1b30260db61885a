import FunctionManifest.Proofs.Discovery.Endpoints

/-!
# Where a walk stops

A walk cannot get past a member that is not there, one of which it cannot be told whether it is a
group, and a function whose name has a dash. It ends at the first of these, at whatever depth, and
has found what comes before.
-/

namespace FunctionManifest

namespace Heap

section

variable (heap : Heap) (project : Project) (root : Root)

/-- A path to something that a walk cannot get past, with the places on it, the addresses of its
groups, and the failure. The text is what stands before the names. -/
inductive Stops : Text → Value → List Nat → List Nat → Failure → Prop
  | absent {before : Text} {v : Value} {place : Nat} {failure : Failure} :
      (heap.members v)[place]? = some (.absent failure) → Stops before v [place] [] failure
  | dashed {before : Text} {v : Value} {place : Nat} {name : Text} {member : Value}
      {f : CloudFunction} :
      (heap.members v)[place]? = some (.found name member) →
      heap.cell? member = some (.function f) → Letter.char '-' ∈ name →
      Stops before v [place] [] (.ofDashedName name before)
  | undecided {before : Text} {v : Value} {place : Nat} {name : Text} {member : Value}
      {failure : Failure} :
      (heap.members v)[place]? = some (.found name member) →
      heap.group? project root member = .error failure → Stops before v [place] [] failure
  | group {before : Text} {v : Value} {place : Nat} {name : Text} {member : Value} {address : Nat}
      {places groups : List Nat} {failure : Failure} :
      (heap.members v)[place]? = some (.found name member) →
      heap.group? project root member = .ok (some address) →
      Stops (before ++ name ++ "-") member places groups failure →
      Stops before v (place :: places) (address :: groups) failure

/-- The groups on the way to a stop are all different, and none is an ancestor. -/
def StopsBelow (ancestors : List Nat) (before : Text) (v : Value) (places : List Nat)
    (failure : Failure) : Prop :=
  ∃ groups, heap.Stops project root before v places groups failure ∧ groups.Nodup ∧
    ∀ address ∈ groups, address ∉ ancestors

/-- A stop at a member or below it, with the places that come after that of the member. -/
def StopsAt (ancestors : List Nat) (before : Text) :
    Member → List Nat → Failure → Prop
  | .absent failure', rest, failure => rest = [] ∧ failure = failure'
  | .found name member, rest, failure =>
    (rest = [] ∧ ((∃ f, heap.cell? member = some (.function f) ∧ Letter.char '-' ∈ name ∧
        failure = .ofDashedName name before) ∨
      heap.group? project root member = .error failure)) ∨
    ∃ address, heap.group? project root member = .ok (some address) ∧ address ∉ ancestors ∧
      heap.StopsBelow project root (address :: ancestors) (before ++ name ++ "-") member rest failure

end

variable {heap : Heap} {project : Project} {root : Root}

theorem stopsBelow_iff {ancestors : List Nat} {before : Text} {v : Value} {places : List Nat}
    {failure : Failure} :
    heap.StopsBelow project root ancestors before v places failure ↔
      ∃ m place rest, (heap.members v)[place]? = some m ∧ places = place :: rest ∧
        heap.StopsAt project root ancestors before m rest failure := by
  constructor
  · rintro ⟨groups, hstops, hnodup, hfresh⟩
    cases hstops with
    | absent hmem => exact ⟨_, _, _, hmem, rfl, rfl, rfl⟩
    | dashed hmem hcell hdash => exact ⟨_, _, _, hmem, rfl, .inl ⟨rfl, .inl ⟨_, hcell, hdash, rfl⟩⟩⟩
    | undecided hmem hgroup => exact ⟨_, _, _, hmem, rfl, .inl ⟨rfl, .inr hgroup⟩⟩
    | @group _ _ _ _ _ address _ groups _ hmem hgroup hstops =>
      obtain ⟨hnot, hnodup⟩ := List.nodup_cons.mp hnodup
      refine ⟨_, _, _, hmem, rfl, .inr ⟨address, hgroup, hfresh _ List.mem_cons_self, groups,
        hstops, hnodup, fun a ha hin => ?_⟩⟩
      rcases List.mem_cons.mp hin with rfl | hin
      · exact hnot ha
      · exact hfresh a (List.mem_cons_of_mem _ ha) hin
  · rintro ⟨m, place, rest, hmem, rfl, hat⟩
    cases m with
    | absent failure' =>
      obtain ⟨rfl, rfl⟩ := hat
      exact ⟨[], .absent hmem, .nil, List.forall_mem_nil _⟩
    | found name member =>
      obtain ⟨rfl, ⟨f, hcell, hdash, rfl⟩ | hgroup⟩ |
        ⟨address, hgroup, hnew, groups, hstops, hnodup, hfresh⟩ := hat
      · exact ⟨[], .dashed hmem hcell hdash, .nil, List.forall_mem_nil _⟩
      · exact ⟨[], .undecided hmem hgroup, .nil, List.forall_mem_nil _⟩
      · refine ⟨address :: groups, .group hmem hgroup hstops, ?_, ?_⟩
        · exact List.nodup_cons.mpr ⟨fun hin => hfresh _ hin List.mem_cons_self, hnodup⟩
        · refine List.forall_mem_cons.mpr ⟨hnew, fun a ha hin => ?_⟩
          exact hfresh a ha (List.mem_cons_of_mem _ hin)

end Heap

/-! ## Up to the first stop -/

/-- One list of places comes before another one: the first place where they differ decides. -/
abbrev ComesBefore (places others : List Nat) : Prop := List.Lex (· < ·) places others

section

variable {places others : List Nat} {k : Nat}

theorem comesBefore_of_place (h : ∃ rest, places = k :: rest)
    (h' : ∃ j rest, others = j :: rest ∧ k < j) : ComesBefore places others := by
  obtain ⟨rest, rfl⟩ := h
  obtain ⟨j, rest', rfl, hlt⟩ := h'
  exact .rel hlt

theorem not_comesBefore_of_place (h : ∃ rest, places = k :: rest)
    (h' : ∃ j rest, others = j :: rest ∧ k < j) : ¬ ComesBefore others places := fun hlt =>
  List.lex_asymm Nat.lt_asymm (comesBefore_of_place h h') hlt

end

/-- A walk found what is reached before the first stop, and was ended by it; or it found all. -/
inductive Walk.EndsAt (before : Text) (walk : Walk) (reached : List Reached)
    (stops : List Nat → Failure → Prop) : Prop
  | whole (hwalk : walk = ⟨reached.map (Reached.found before), none⟩)
      (hnone : ∀ places failure, ¬ stops places failure)
  | cut {visited rest : List Reached} {places : List Nat} {failure : Failure}
      (hwalk : walk = ⟨visited.map (Reached.found before), some failure⟩)
      (hreached : reached = visited ++ rest) (hstops : stops places failure)
      (hbefore : ∀ r ∈ visited, ComesBefore r.path.places places)
      (hrest : ∀ r ∈ rest, ¬ ComesBefore r.path.places places)
      (hfirst : ∀ places' failure', stops places' failure' →
        places' = places ∧ failure' = failure ∨ ComesBefore places places')

namespace Walk.EndsAt

variable {before : Text} {walk : Walk} {reached : List Reached} {stops : List Nat → Failure → Prop}

theorem congr {stops' : List Nat → Failure → Prop} (h : EndsAt before walk reached stops)
    (heq : ∀ places failure, stops places failure ↔ stops' places failure) :
    EndsAt before walk reached stops' := by
  have hsame : stops = stops' := funext fun places => funext fun failure => propext (heq _ _)
  rwa [← hsame]

/-- Below a group everything has the place and the name of the group before it. -/
theorem through (step : Step) (h : EndsAt (before ++ step.name ++ "-") walk reached stops) :
    EndsAt before walk (reached.map (Reached.through step)) fun places failure =>
      ∃ rest, places = step.place :: rest ∧ stops rest failure := by
  have hfound : ∀ l : List Reached, (l.map (Reached.through step)).map (Reached.found before) =
      l.map (Reached.found (before ++ step.name ++ "-")) := fun l => by
    simp [Reached.found, Reached.through]
  cases h with
  | whole hwalk hnone =>
    refine .whole (by rw [hfound, hwalk]) ?_
    rintro _ failure ⟨rest, rfl, hstops⟩
    exact hnone rest failure hstops
  | @cut visited rest places failure hwalk hreached hstops hbefore hrest hfirst =>
    refine .cut (by rw [hfound, hwalk]) (by rw [hreached, List.map_append])
      ⟨places, rfl, hstops⟩ ?_ ?_ ?_
    · intro r hr
      obtain ⟨below, hbelow, rfl⟩ := List.mem_map.mp hr
      exact .cons (hbefore below hbelow)
    · intro r hr hlt
      obtain ⟨below, hbelow, rfl⟩ := List.mem_map.mp hr
      exact hrest below hbelow (List.lex_cons_iff.mp hlt)
    · rintro _ failure' ⟨rest', rfl, hstops'⟩
      obtain ⟨rfl, rfl⟩ | hlt := hfirst rest' failure' hstops'
      · exact .inl ⟨rfl, rfl⟩
      · exact .inr (.cons hlt)

/-- What comes of one member is all before what comes of the later ones. -/
theorem andThen {later : List Reached} {stops' : List Nat → Failure → Prop}
    (h : EndsAt before walk reached stops) (next : Unit → Walk)
    (h' : EndsAt before (next ()) later stops') {k : Nat}
    (hreachedAt : ∀ r ∈ reached, ∃ rest, r.path.places = k :: rest)
    (hstopsAt : ∀ places failure, stops places failure → ∃ rest, places = k :: rest)
    (hlaterAt : ∀ r ∈ later, ∃ j rest, r.path.places = j :: rest ∧ k < j)
    (hstopsLater : ∀ places failure, stops' places failure → ∃ j rest, places = j :: rest ∧ k < j) :
    EndsAt before (walk.andThen next) (reached ++ later) fun places failure =>
      stops places failure ∨ stops' places failure := by
  cases h with
  | cut hwalk hreached hstops hbefore hrest hfirst =>
    -- The second walk never starts, and all that it would come to is behind the stop.
    have hsame : walk.andThen next = walk := by rw [hwalk]; rfl
    refine .cut (hsame.trans hwalk) (by rw [hreached, List.append_assoc]) (.inl hstops) hbefore ?_ ?_
    · intro r hr
      rcases List.mem_append.mp hr with hin | hin
      · exact hrest r hin
      · exact not_comesBefore_of_place (hstopsAt _ _ hstops) (hlaterAt r hin)
    · rintro places' failure' (hstops' | hstops')
      · exact hfirst places' failure' hstops'
      · exact .inr (comesBefore_of_place (hstopsAt _ _ hstops) (hstopsLater _ _ hstops'))
  | whole hwalk hnone =>
    cases h' with
    | whole hnext hnone' =>
      refine .whole (by simp [Walk.andThen, hwalk, hnext]) ?_
      rintro places failure (hstops | hstops)
      · exact hnone places failure hstops
      · exact hnone' places failure hstops
    | @cut visited rest places failure hnext hlater hstops hbefore hrest hfirst =>
      have hboth : walk.andThen next =
          ⟨(reached ++ visited).map (Reached.found before), some failure⟩ := by
        simp [Walk.andThen, hwalk, hnext]
      refine .cut hboth (by rw [hlater, List.append_assoc]) (.inr hstops) ?_ hrest ?_
      · intro r hr
        rcases List.mem_append.mp hr with hin | hin
        · exact comesBefore_of_place (hreachedAt r hin) (hstopsLater _ _ hstops)
        · exact hbefore r hin
      · rintro places' failure' (hstops' | hstops')
        · exact absurd hstops' (hnone places' failure')
        · exact hfirst places' failure' hstops'

end Walk.EndsAt

namespace Walk

/-- Going through members one by one stops at the first one that cannot be got past. -/
theorem visitAll_endsAt {visit : Text → Value → Walk} {below : Step → Value → List Reached}
    {stopsAt : Member → List Nat → Failure → Prop} {before : Text} {members : List Member}
    (habsent : ∀ failure rest failure', stopsAt (.absent failure) rest failure' ↔
      rest = [] ∧ failure' = failure)
    (hvisit : ∀ place name member, .found name member ∈ members →
      EndsAt before (visit name member) (below ⟨place, name⟩ member) fun places failure =>
        ∃ rest, places = place :: rest ∧ stopsAt (.found name member) rest failure)
    (hbelow : ∀ step member, ∀ r ∈ below step member, ∃ rest, r.path.places = step.place :: rest)
    (k : Nat) :
    EndsAt before (visitAll visit members) ((members.zipIdx k).flatMap fun
        | (.found name member, place) => below ⟨place, name⟩ member
        | (.absent _, _) => [])
      fun places failure => ∃ m place rest, (m, place) ∈ members.zipIdx k ∧
        places = place :: rest ∧ stopsAt m rest failure := by
  -- Behind the first member places are counted from one further.
  induction members generalizing k with
  | nil => exact .whole rfl (by rintro _ _ ⟨m, place, rest, hmem, -⟩; cases hmem)
  | cons m members ih =>
    have hrest := ih (fun place name member hm => hvisit place name member
      (List.mem_cons_of_mem _ hm)) (k + 1)
    have hlaterAt : ∀ r ∈ (members.zipIdx (k + 1)).flatMap (fun
        | (.found name member, place) => below ⟨place, name⟩ member
        | (.absent _, _) => []), ∃ j rest, r.path.places = j :: rest ∧ k < j := by
      intro r hr
      obtain ⟨⟨m, place⟩, hmem, hr⟩ := List.mem_flatMap.mp hr
      have hge := List.le_snd_of_mem_zipIdx hmem
      cases m with
      | absent failure => cases hr
      | found name member =>
        obtain ⟨rest, hplaces⟩ := hbelow _ _ r hr
        exact ⟨place, rest, hplaces, hge⟩
    have hstopsLater : ∀ places failure, (∃ m place rest, (m, place) ∈ members.zipIdx (k + 1) ∧
        places = place :: rest ∧ stopsAt m rest failure) →
        ∃ j rest, places = j :: rest ∧ k < j := by
      rintro _ failure ⟨m, place, rest, hmem, rfl, -⟩
      exact ⟨place, rest, rfl, List.le_snd_of_mem_zipIdx hmem⟩
    have hstopsAt : ∀ places failure, (∃ rest, places = k :: rest ∧ stopsAt m rest failure) →
        ∃ rest, places = k :: rest := fun _ _ h => h.imp fun _ => And.left
    have hcons : ∀ places failure, ((∃ rest, places = k :: rest ∧ stopsAt m rest failure) ∨
        ∃ m place rest, (m, place) ∈ members.zipIdx (k + 1) ∧ places = place :: rest ∧
          stopsAt m rest failure) ↔
        ∃ m' place rest, (m', place) ∈ (m :: members).zipIdx k ∧ places = place :: rest ∧
          stopsAt m' rest failure := by
      intro places failure
      simp only [List.zipIdx_cons, List.mem_cons, Prod.mk.injEq]
      constructor
      · rintro (⟨rest, hplaces, hstops⟩ | ⟨m', place, rest, hmem, hstops⟩)
        · exact ⟨m, k, rest, .inl ⟨rfl, rfl⟩, hplaces, hstops⟩
        · exact ⟨m', place, rest, .inr hmem, hstops⟩
      · rintro ⟨m', place, rest, ⟨rfl, rfl⟩ | hmem, hstops⟩
        · exact .inl ⟨rest, hstops⟩
        · exact .inr ⟨m', place, rest, hmem, hstops⟩
    rw [List.zipIdx_cons, List.flatMap_cons]
    cases m with
    | absent failure =>
      have hfirst : EndsAt before (stopped failure) [] fun places failure' =>
          ∃ rest, places = k :: rest ∧ stopsAt (.absent failure) rest failure' := by
        have hwalk : stopped failure = ⟨[].map (Reached.found before), some failure⟩ := rfl
        refine .cut hwalk rfl ⟨[], rfl, (habsent _ _ _).mpr ⟨rfl, rfl⟩⟩ (List.forall_mem_nil _)
          (List.forall_mem_nil _) ?_
        rintro _ failure' ⟨rest, rfl, hstops⟩
        obtain ⟨rfl, rfl⟩ := (habsent _ _ _).mp hstops
        exact .inl ⟨rfl, rfl⟩
      exact (hfirst.andThen (fun _ => visitAll visit members) hrest
        (List.forall_mem_nil _) hstopsAt hlaterAt hstopsLater).congr hcons
    | found name member =>
      have hfirst := hvisit k name member List.mem_cons_self
      exact (hfirst.andThen (fun _ => visitAll visit members) hrest
        (hbelow ⟨k, name⟩ member) hstopsAt hlaterAt hstopsLater).congr hcons

end Walk

namespace Heap

variable {heap : Heap} {project : Project} {root : Root}

/-- At a function nothing stops a walk but a dash in its name. -/
theorem findFunction_endsAt {way : Way} {name : Text} {member : Value} {f : CloudFunction}
    (hcell : heap.cell? member = some (.function f)) (place : Nat) :
    Walk.EndsAt way.groups (findFunction way name member f) [⟨⟨[], ⟨place, name⟩⟩, member, f⟩]
      fun places failure => ∃ rest, places = place :: rest ∧
        heap.StopsAt project root way.ancestors way.groups (.found name member) rest failure := by
  have hgroup : heap.group? project root member = .ok none := group?_of_function hcell
  have hstops : ∀ rest failure,
      heap.StopsAt project root way.ancestors way.groups (.found name member) rest failure ↔
        rest = [] ∧ Letter.char '-' ∈ name ∧ failure = .ofDashedName name way.groups := by
    simp [StopsAt, hcell, hgroup]
  simp only [hstops]
  by_cases hdash : Letter.char '-' ∈ name
  · have hwalk : findFunction way name member f =
        ⟨[].map (Reached.found way.groups), some (.ofDashedName name way.groups)⟩ := by
      simp [findFunction, hdash, Walk.stopped]
    refine .cut hwalk rfl ⟨[], rfl, rfl, hdash, rfl⟩ (List.forall_mem_nil _) ?_ ?_
    · intro r hr hlt
      rw [List.mem_singleton.mp hr] at hlt
      exact List.lex_irrefl (fun _ => Nat.lt_irrefl _) _ hlt
    · rintro _ failure ⟨rest, rfl, rfl, -, rfl⟩
      exact .inl ⟨rfl, rfl⟩
  · refine .whole ?_ ?_
    · simp [findFunction, hdash, Reached.found]
    · rintro _ failure ⟨rest, rfl, rfl, hin, -⟩
      exact hdash hin

/-- Nothing but a group can lead further, and a group only if it is no ancestor. -/
theorem stopsAt_found_iff {ancestors : List Nat} {before name : Text} {member : Value}
    (hnot : ∀ f, heap.cell? member ≠ some (.function f)) {rest : List Nat} {failure : Failure} :
    heap.StopsAt project root ancestors before (.found name member) rest failure ↔
      rest = [] ∧ heap.group? project root member = .error failure ∨
      ∃ address, heap.group? project root member = .ok (some address) ∧ address ∉ ancestors ∧
        heap.StopsBelow project root (address :: ancestors) (before ++ name ++ "-") member rest
          failure := by
  simp only [StopsAt, hnot, false_and, exists_false, false_or]

/-- A walk ends at the first stop, and finds what it reaches before it. -/
theorem walk_endsAt {fuel : Nat} {way : Way} {v : Value}
    (hfuel : heap.unvisited way.ancestors < fuel) :
    Walk.EndsAt way.groups (heap.walk project root fuel way v)
      (heap.reachedFrom project root fuel way.ancestors v)
      (heap.StopsBelow project root way.ancestors way.groups v) := by
  -- Every group that is entered is one object less to enter, so the fuel does not run out.
  induction fuel generalizing way v with
  | zero => omega
  | succ fuel ih =>
    have hiff : ∀ places failure, (∃ m place rest, (m, place) ∈ (heap.members v).zipIdx ∧
        places = place :: rest ∧
        heap.StopsAt project root way.ancestors way.groups m rest failure) ↔
        heap.StopsBelow project root way.ancestors way.groups v places failure := by
      intro places failure
      simp only [stopsBelow_iff, List.mk_mem_zipIdx_iff_getElem?]
    unfold walk reachedFrom
    refine (Walk.visitAll_endsAt (fun _ _ _ => Iff.rfl) ?_ ?hplaces 0).congr hiff
    case hplaces => exact fun _ _ _ => places_of_mem_reachedAt
    intro place name member hmem
    split
    · rename_i f hcell
      rw [reachedAt_of_function hcell]
      exact findFunction_endsAt hcell place
    · rename_i hcell
      have hnot : ∀ f, heap.cell? member ≠ some (.function f) := by simpa using hcell
      simp only [stopsAt_found_iff hnot]
      cases hgroup : heap.group? project root member with
      | error failure =>
        rw [reachedAt_of_none hnot (by simp [hgroup])]
        have hwalk : Walk.stopped failure = ⟨[].map (Reached.found way.groups), some failure⟩ := rfl
        refine .cut hwalk rfl ⟨[], rfl, .inl ⟨rfl, rfl⟩⟩ (List.forall_mem_nil _)
          (List.forall_mem_nil _) ?_
        rintro _ failure' ⟨rest, rfl, ⟨rfl, hsame⟩ | ⟨address, hother, -⟩⟩
        · exact .inl ⟨rfl, (Except.error.inj hsame).symm⟩
        · cases hother
      | ok group =>
        cases group with
        | none =>
          rw [reachedAt_of_none hnot (by simp [hgroup])]
          refine .whole rfl ?_
          rintro _ failure ⟨rest, rfl, ⟨-, hother⟩ | ⟨address, hother, -⟩⟩ <;> cases hother
        | some address =>
          rw [reachedAt_of_group hgroup]
          by_cases hin : address ∈ way.ancestors
          · simp only [hin, if_true]
            refine .whole rfl ?_
            rintro _ failure ⟨rest, rfl, ⟨-, hother⟩ | ⟨other, hother, hnew, -⟩⟩
            · cases hother
            · cases hother
              exact hnew hin
          · simp only [hin, if_false]
            have hlt := unvisited_cons_lt (group?_lt_size hgroup).2 hin
            have hfuel : heap.unvisited (way.enter name address).ancestors < fuel := by
              simp only [Way.enter]
              omega
            have hbelow : Walk.EndsAt (way.groups ++ name ++ "-")
                (heap.walk project root fuel (way.enter name address) member)
                (heap.reachedFrom project root fuel (address :: way.ancestors) member)
                (heap.StopsBelow project root (address :: way.ancestors)
                  (way.groups ++ name ++ "-") member) := ih hfuel
            refine (Walk.EndsAt.through ⟨place, name⟩ hbelow).congr fun places failure => ?_
            simp [hin]

end Heap

end FunctionManifest
