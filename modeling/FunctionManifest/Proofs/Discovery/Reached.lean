import FunctionManifest.Proofs.Discovery.MemberPath
import Mathlib.Data.List.Basic

/-!
# What a walk reaches

All functions that a walk would reach if nothing ended it, in the order in which it meets them. They
are the ends of the paths without repetition, and no path comes twice.
-/

namespace FunctionManifest

/-- A function with a path that leads to it. -/
structure Reached where
  path : MemberPath
  function : Value
  parts : CloudFunction

def Reached.through (step : Step) (reached : Reached) : Reached :=
  { reached with path := reached.path.through step }

/-! ## How much is left -/

namespace Heap

/-- How many objects are not among the ancestors. -/
def unvisited (heap : Heap) (ancestors : List Nat) : Nat :=
  (List.range heap.cells.size).countP (· ∉ ancestors)

theorem unvisited_le_size (heap : Heap) (ancestors : List Nat) :
    heap.unvisited ancestors ≤ heap.cells.size := by
  have h : heap.unvisited ancestors ≤ (List.range heap.cells.size).length := List.countP_le_length
  simpa using h

/-- Entering an object that is no ancestor leaves fewer. -/
theorem unvisited_cons_lt {heap : Heap} {ancestors : List Nat} {address : Nat}
    (hsize : address < heap.cells.size) (hnew : address ∉ ancestors) :
    heap.unvisited (address :: ancestors) < heap.unvisited ancestors := by
  unfold unvisited
  obtain ⟨before, after, hsplit⟩ := List.append_of_mem (List.mem_range.mpr hsize)
  rw [hsplit]
  have hle : ∀ l : List Nat, l.countP (· ∉ address :: ancestors) ≤ l.countP (· ∉ ancestors) := by
    intro l
    refine List.countP_mono_left fun x _ hx => ?_
    simp at hx ⊢
    exact hx.2
  have h1 := hle before
  have h2 := hle after
  rw [List.countP_append, List.countP_append,
    List.countP_cons_of_neg (by simp), List.countP_cons_of_pos (by simpa using hnew)]
  omega

theorem group?_lt_size {heap : Heap} {project : Project} {root : Root} {v : Value} {address : Nat}
    (h : heap.group? project root v = .ok (some address)) :
    v = .ref address ∧ address < heap.cells.size := by
  unfold group? at h
  split at h
  case h_1 a attributes hcell =>
    simp only [bind, Except.bind, pure, Except.pure] at h
    split at h
    · cases h
    · split at h
      · cases h
        exact ⟨rfl, (Array.getElem?_eq_some_iff.mp hcell).1⟩
      · cases h
  case h_2 hcell | h_3 hcell =>
    cases h
    exact ⟨rfl, (Array.getElem?_eq_some_iff.mp hcell).1⟩
  case h_4 => cases h

/-! ## Everything in order -/

section

variable (heap : Heap) (project : Project) (root : Root)

/-- Below one member, given how to look into a group. -/
def reachedAt (below : Nat → Value → List Reached) (step : Step) (member : Value) :
    List Reached :=
  match heap.cell? member with
  | some (.function f) => [⟨⟨[], step⟩, member, f⟩]
  | _ =>
    match heap.group? project root member with
    | .ok (some address) => (below address member).map (Reached.through step)
    | _ => []

def reachedFrom : Nat → List Nat → Value → List Reached
  | 0, _, _ => []
  | fuel + 1, ancestors, v =>
    (heap.members v).zipIdx.flatMap fun
      | (.found name member, place) =>
        heap.reachedAt project root
          (fun address member =>
            if address ∈ ancestors then [] else reachedFrom fuel (address :: ancestors) member)
          ⟨place, name⟩ member
      | (.absent _, _) => []

end

variable {heap : Heap} {project : Project} {root : Root}

theorem group?_of_function {member : Value} {f : CloudFunction}
    (h : heap.cell? member = some (.function f)) : heap.group? project root member = .ok none := by
  unfold group?
  split <;> simp_all

theorem reachedAt_of_function {below : Nat → Value → List Reached} {step : Step} {member : Value}
    {f : CloudFunction} (h : heap.cell? member = some (.function f)) :
    heap.reachedAt project root below step member = [⟨⟨[], step⟩, member, f⟩] := by
  simp [reachedAt, h]

theorem reachedAt_of_group {below : Nat → Value → List Reached} {step : Step} {member : Value}
    {address : Nat} (h : heap.group? project root member = .ok (some address)) :
    heap.reachedAt project root below step member =
      (below address member).map (Reached.through step) := by
  unfold reachedAt
  split
  · rename_i f hcell
    rw [group?_of_function hcell] at h
    cases h
  · rw [h]

theorem reachedAt_of_none {below : Nat → Value → List Reached} {step : Step} {member : Value}
    (hf : ∀ f, heap.cell? member ≠ some (.function f))
    (h : ∀ address, heap.group? project root member ≠ .ok (some address)) :
    heap.reachedAt project root below step member = [] := by
  unfold reachedAt
  split
  · exact absurd ‹_› (hf _)
  · split
    · exact absurd ‹_› (h _)
    · rfl

theorem mem_reachedAt_iff {below : Nat → Value → List Reached} {step : Step} {member : Value}
    {r : Reached} :
    r ∈ heap.reachedAt project root below step member ↔
      (∃ f, heap.cell? member = some (.function f) ∧ r = ⟨⟨[], step⟩, member, f⟩) ∨
      (∃ address r', heap.group? project root member = .ok (some address) ∧
        r' ∈ below address member ∧ r = r'.through step) := by
  by_cases hf : ∃ f, heap.cell? member = some (.function f)
  · obtain ⟨f, hcell⟩ := hf
    simp [reachedAt_of_function hcell, hcell, group?_of_function hcell]
  · by_cases hg : ∃ address, heap.group? project root member = .ok (some address)
    · obtain ⟨address, hgroup⟩ := hg
      rw [reachedAt_of_group hgroup, List.mem_map]
      constructor
      · rintro ⟨r', hr', rfl⟩
        exact Or.inr ⟨address, r', hgroup, hr', rfl⟩
      · rintro (⟨f, hcell, -⟩ | ⟨address', r', hgroup', hr', rfl⟩)
        · exact absurd ⟨f, hcell⟩ hf
        · rw [hgroup] at hgroup'
          cases hgroup'
          exact ⟨r', hr', rfl⟩
    · rw [reachedAt_of_none (by simpa using hf) (by simpa using hg)]
      constructor
      · simp
      · rintro (⟨f, hcell, -⟩ | ⟨address, r', hgroup, -⟩)
        · exact absurd ⟨f, hcell⟩ hf
        · exact absurd ⟨address, hgroup⟩ hg

/-- Every path below a member starts with the place of that member. -/
theorem places_of_mem_reachedAt {below : Nat → Value → List Reached} {step : Step}
    {member : Value} {r : Reached} (h : r ∈ heap.reachedAt project root below step member) :
    ∃ rest, r.path.places = step.place :: rest := by
  rcases mem_reachedAt_iff.mp h with ⟨f, -, rfl⟩ | ⟨address, r', -, -, rfl⟩
  · exact ⟨[], rfl⟩
  · exact ⟨_, MemberPath.places_through _ _⟩

theorem mem_reachedFrom_succ {fuel : Nat} {ancestors : List Nat} {v : Value} {r : Reached} :
    r ∈ heap.reachedFrom project root (fuel + 1) ancestors v ↔
      ∃ place name member, (heap.members v)[place]? = some (.found name member) ∧
        ((∃ f, heap.cell? member = some (.function f) ∧ r = ⟨⟨[], ⟨place, name⟩⟩, member, f⟩) ∨
        (∃ address r', heap.group? project root member = .ok (some address) ∧
          address ∉ ancestors ∧
          r' ∈ heap.reachedFrom project root fuel (address :: ancestors) member ∧
          r = r'.through ⟨place, name⟩)) := by
  rw [reachedFrom, List.mem_flatMap]
  constructor
  · rintro ⟨⟨member, place⟩, hmem, hr⟩
    rw [List.mk_mem_zipIdx_iff_getElem?] at hmem
    cases member with
    | absent failure => simp at hr
    | found name member =>
      refine ⟨place, name, member, hmem, ?_⟩
      rcases mem_reachedAt_iff.mp hr with h | ⟨address, r', hgroup, hr', rfl⟩
      · exact Or.inl h
      · split at hr'
        · simp at hr'
        · exact Or.inr ⟨address, r', hgroup, ‹_›, hr', rfl⟩
  · rintro ⟨place, name, member, hmem, hr⟩
    refine ⟨(.found name member, place), List.mk_mem_zipIdx_iff_getElem?.mpr hmem, ?_⟩
    apply mem_reachedAt_iff.mpr
    rcases hr with h | ⟨address, r', hgroup, hnew, hr', rfl⟩
    · exact Or.inl h
    · exact Or.inr ⟨address, r', hgroup, by simpa [hnew] using hr', rfl⟩

/-- What is reached is exactly where the paths lead that avoid the ancestors and repeat no group. -/
theorem mem_reachedFrom_iff {fuel : Nat} {ancestors : List Nat} {v : Value} {r : Reached}
    (hfuel : heap.unvisited ancestors < fuel) :
    r ∈ heap.reachedFrom project root fuel ancestors v ↔
      ∃ groups, heap.Leads project root v r.path groups r.function r.parts ∧
        groups.Nodup ∧ ∀ address ∈ groups, address ∉ ancestors := by
  induction fuel generalizing ancestors v r with
  | zero => omega
  | succ fuel ih =>
    rw [mem_reachedFrom_succ]
    constructor
    · rintro ⟨place, name, member, hmem, ⟨f, hcell, rfl⟩ | ⟨address, r', hgroup, hnew, hr', rfl⟩⟩
      · exact ⟨[], .function hmem hcell, by simp, by simp⟩
      · have hlt := unvisited_cons_lt (group?_lt_size hgroup).2 hnew
        obtain ⟨groups, hleads, hnodup, hfresh⟩ := (ih (by omega)).mp hr'
        refine ⟨address :: groups, .group hmem hgroup hleads, ?_, ?_⟩
        · refine List.nodup_cons.mpr ⟨fun hin => ?_, hnodup⟩
          exact hfresh address hin List.mem_cons_self
        · intro a ha
          rcases List.mem_cons.mp ha with rfl | ha
          · exact hnew
          · exact fun hin => hfresh a ha (List.mem_cons_of_mem _ hin)
    · rintro ⟨groups, hleads, hnodup, hfresh⟩
      obtain ⟨path, function, parts⟩ := r
      cases hleads with
      | function hmem hcell => exact ⟨_, _, _, hmem, Or.inl ⟨_, hcell, rfl⟩⟩
      | @group _ place name member address path groups _ _ hmem hgroup hleads =>
        have hnew := hfresh address List.mem_cons_self
        have hlt := unvisited_cons_lt (group?_lt_size hgroup).2 hnew
        obtain ⟨hnot, hnodup⟩ := List.nodup_cons.mp hnodup
        refine ⟨place, name, member, hmem, Or.inr ⟨address, ⟨path, function, parts⟩, hgroup, hnew,
          (ih (by omega)).mpr ⟨groups, hleads, hnodup, ?_⟩, rfl⟩⟩
        intro a ha hin
        rcases List.mem_cons.mp hin with rfl | hin
        · exact hnot ha
        · exact hfresh a (List.mem_cons_of_mem _ ha) hin

/-- Members are met in order, and so are the paths below each of them. -/
theorem pairwise_before_reachedFrom (fuel : Nat) (ancestors : List Nat) (v : Value) :
    (heap.reachedFrom project root fuel ancestors v).Pairwise
      fun r r' => r.path.Before r'.path := by
  induction fuel generalizing ancestors v with
  | zero => exact List.Pairwise.nil
  | succ fuel ih =>
    rw [reachedFrom, List.pairwise_flatMap]
    constructor
    · rintro ⟨member, place⟩ -
      cases member with
      | absent failure => exact List.Pairwise.nil
      | found name member =>
        simp only [reachedAt]
        split
        · exact List.pairwise_singleton _ _
        · split
          · rw [List.pairwise_map]
            split
            · exact List.Pairwise.nil
            · exact (ih _ _).imp fun h => List.Lex.cons h
          · exact List.Pairwise.nil
    · -- Earlier members have smaller places.
      have horder : (heap.members v).zipIdx.Pairwise fun a b => a.2 < b.2 := by
        have h : (((heap.members v).zipIdx).map Prod.snd).Pairwise (· < ·) := by
          rw [List.zipIdx_map_snd]
          exact List.pairwise_lt_range'
        exact List.pairwise_map.mp h
      refine horder.imp ?_
      rintro ⟨a, i⟩ ⟨b, j⟩ hij r hr r' hr'
      cases a with
      | absent failure => simp at hr
      | found name member =>
        cases b with
        | absent failure => simp at hr'
        | found name' member' =>
          obtain ⟨rest, h⟩ := places_of_mem_reachedAt hr
          obtain ⟨rest', h'⟩ := places_of_mem_reachedAt hr'
          unfold MemberPath.Before
          rw [h, h']
          exact List.Lex.rel hij

end Heap

end FunctionManifest
