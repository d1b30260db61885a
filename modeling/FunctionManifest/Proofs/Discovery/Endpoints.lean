import FunctionManifest.Proofs.Discovery.Collecting
import FunctionManifest.Proofs.Discovery.Walk

/-!
# The endpoints of a namespace

A walk from a namespace keeps one endpoint for each key of a path, that of the last path with the
key, unless a function has a dash in its name.
-/

namespace FunctionManifest

open Eval

namespace Heap

variable {heap : Heap} {project : Project} {root : Root} {v : Value}

/-! ## Groups that can be told -/

/-- A module with a text for its name, or no module. The file it comes from, if there is one, can
be resolved. -/
structure Identified (heap : Heap) (project : Project) (v : Value) : Prop where
  name : ∀ attributes, heap.cell? v = some (.module attributes) →
    ∃ name, heap.stored? v "__name__" = some (.text name)
  file : ∃ file?, fileOf? heap v = .ok file? ∧
    ∀ file ∈ file?, ∃ location, project.resolve? project.base file = .ok location

theorem Identified.rootOf (h : heap.Identified project v) :
    ∃ root name, heap.rootOf project v = .ok root ∧ root.name = .text name := by
  obtain ⟨name, hname⟩ : ∃ name, heap.rootName v = .ok (.text name) := by
    unfold rootName
    split
    · rename_i hcell
      obtain ⟨name, hname⟩ := h.name _ hcell
      exact ⟨name, by simp [moduleName, hname]⟩
    · exact ⟨[], rfl⟩
  obtain ⟨directory, hdirectory⟩ : ∃ directory, heap.directoryOf? project v = .ok directory := by
    obtain ⟨file?, hfile, hresolve⟩ := h.file
    unfold directoryOf?
    rw [hfile]
    cases file? with
    | none => exact ⟨_, rfl⟩
    | some file =>
      obtain ⟨location, hlocation⟩ := hresolve file rfl
      exact ⟨some location.parent, by simp only [bind, Except.bind, hlocation]; rfl⟩
  refine ⟨⟨.text name, directory⟩, name, ?_, rfl⟩
  unfold Heap.rootOf
  rw [hname, hdirectory]
  rfl

theorem Identified.group? (h : heap.Identified project v) {rootName : Text}
    (hroot : root.name = .text rootName) : ∃ group, heap.group? project root v = .ok group := by
  obtain ⟨file?, hfile, hresolve⟩ := h.file
  have hcomes : ∀ directory, ∃ answer, comesFrom heap project directory v = .ok answer := by
    intro directory
    unfold comesFrom
    rw [hfile]
    cases file? with
    | none => exact ⟨_, rfl⟩
    | some file =>
      obtain ⟨location, hlocation⟩ := hresolve file rfl
      refine ⟨!location.isInstalled && location.isWithin directory, ?_⟩
      simp only [bind, Except.bind, isProjectFile, hlocation]
      rfl
  have howns : ∀ attributes, heap.cell? v = some (.module attributes) →
      ∃ answer, heap.owns project root v = .ok answer := by
    intro attributes hcell
    obtain ⟨name, hname⟩ := h.name _ hcell
    unfold owns
    simp only [moduleName, hname, isBelow, hroot, dotted, bind, Except.bind, pure, Except.pure]
    split
    · exact ⟨_, rfl⟩
    · cases root.directory with
      | none => exact ⟨_, rfl⟩
      | some directory => exact hcomes directory
  unfold Heap.group?
  split
  · rename_i hcell
    obtain ⟨answer, hanswer⟩ := howns _ hcell
    exact ⟨_, by rw [hanswer]; rfl⟩
  all_goals exact ⟨_, rfl⟩

/-! ## What is reached from a namespace -/

/-- All functions that paths from a namespace lead to, in the order of the paths. -/
def reached (heap : Heap) (project : Project) (root : Root) (v : Value) : List Reached :=
  heap.reachedFrom project root (heap.cells.size + 1) (Way.start [] v).ancestors v

/-- All functions that paths from a namespace lead to, with their keys. -/
def allFound (heap : Heap) (project : Project) (root : Root) (before : Text) (v : Value) :
    List Found :=
  (heap.reached project root v).map (Reached.found before)

theorem ancestors_start (groups : Text) (v : Value) :
    (Way.start groups v).ancestors = (Way.start [] v).ancestors := by
  cases v <;> rfl

theorem groups_start (groups : Text) (v : Value) : (Way.start groups v).groups = groups := by
  cases v <;> rfl

theorem nodup_ancestors_start (v : Value) : (Way.start [] v).ancestors.Nodup := by
  cases v with
  | ref address => exact List.pairwise_singleton _ address
  | _ => exact List.nodup_nil

theorem mem_reached_iff {r : Reached} :
    r ∈ heap.reached project root v ↔ heap.HasPath project root v r.path r.function r.parts := by
  unfold reached
  rw [mem_reachedFrom_iff (Nat.lt_succ_of_le (heap.unvisited_le_size _))]
  unfold HasPath
  refine exists_congr fun groups => and_congr_right fun _ => ?_
  rw [List.nodup_append]
  constructor
  · rintro ⟨hnodup, hfresh⟩
    exact ⟨nodup_ancestors_start v, hnodup, fun a ha b hb hab => hfresh b hb (hab ▸ ha)⟩
  · rintro ⟨-, hnodup, hdisjoint⟩
    exact ⟨hnodup, fun a ha hin => hdisjoint a hin a ha rfl⟩

theorem pairwise_before_reached (heap : Heap) (project : Project) (root : Root) (v : Value) :
    (heap.reached project root v).Pairwise fun r r' => r.path.Before r'.path :=
  pairwise_before_reachedFrom _ _ _

/-! ## Namespaces that can be walked -/

/-- Every name that something visited lists is there. -/
def HasAllListed (heap : Heap) (project : Project) (root : Root) (v : Value) : Prop :=
  ∀ before w, heap.Visits project root (Way.start [] v).ancestors v before w →
    ∀ m ∈ heap.members w, ∃ name member, m = .found name member

/-- Whatever a walk looks at has the parts that its type says. -/
structure WellTyped (heap : Heap) (project : Project) (root : Root) (v : Value) : Prop where
  namespaces : heap.Identified project v
  members : ∀ before w, heap.Visits project root (Way.start [] v).ancestors v before w →
    ∀ name member, .found name member ∈ heap.members w → heap.Identified project member
  functions : ∀ path function f, heap.HasPath project root v path function f → f.IsTyped heap

theorem WellTyped.readable (h : heap.WellTyped project root v)
    (hroot : heap.rootOf project v = .ok root) (hlisted : heap.HasAllListed project root v) :
    heap.Readable project root (Way.start [] v).ancestors v where
  found := hlisted
  decided before w hw name member hmem := by
    obtain ⟨root', rootName, hroot', hname⟩ := h.namespaces.rootOf
    rw [hroot] at hroot'
    cases hroot'
    exact (h.members before w hw name member hmem).group? hname

theorem discover_eq_ofReached {groups : Text} (hroot : heap.rootOf project v = .ok root)
    (h : heap.Readable project root (Way.start [] v).ancestors v) :
    heap.discover project groups v = .ofReached groups (heap.reached project root v) := by
  unfold discover reached
  rw [hroot]
  simp only
  rw [walk_eq_ofReached (by rwa [ancestors_start]), ancestors_start, groups_start]

/-- A path after which no other path has the same key. -/
def IsLast (heap : Heap) (project : Project) (root : Root) (v : Value) (before : Text)
    (path : MemberPath) : Prop :=
  ∀ other function f, heap.HasPath project root v other function f →
    other.key before = path.key before → other = path ∨ other.Before path

/-- Among the items with a property there is a last one. -/
theorem exists_last {α : Type} {p : α → Prop} {l : List α} (h : ∃ a ∈ l, p a) :
    ∃ earlier last later, l = earlier ++ last :: later ∧ p last ∧ ∀ a ∈ later, ¬ p a := by
  induction l with
  | nil => simp at h
  | cons x rest ih =>
    by_cases hrest : ∃ a ∈ rest, p a
    · obtain ⟨earlier, last, later, rfl, hlast, hlater⟩ := ih hrest
      exact ⟨x :: earlier, last, later, rfl, hlast, hlater⟩
    · obtain ⟨a, ha, hpa⟩ := h
      have hx : a = x := by
        rcases List.mem_cons.mp ha with hx | ha
        · exact hx
        · exact absurd ⟨a, ha, hpa⟩ hrest
      exact ⟨[], x, rest, rfl, hx ▸ hpa, fun b hb hpb => hrest ⟨b, hb, hpb⟩⟩

/-- Among the functions under a key there is a last one, and its path is the last path. -/
theorem exists_last_reached (before : Text) {r : Reached}
    (hr : r ∈ heap.reached project root v) :
    ∃ earlier last later, heap.reached project root v = earlier ++ last :: later ∧
      last.path.key before = r.path.key before ∧
      (∀ r' ∈ later, r'.path.key before ≠ r.path.key before) ∧
      heap.IsLast project root v before last.path := by
  obtain ⟨earlier, last, later, hsplit, hkey, hlater⟩ :=
    exists_last (p := fun r' : Reached => r'.path.key before = r.path.key before) ⟨r, hr, rfl⟩
  refine ⟨earlier, last, later, hsplit, hkey, hlater, ?_⟩
  intro other function f hother hsame
  have hmem : (⟨other, function, f⟩ : Reached) ∈ heap.reached project root v :=
    mem_reached_iff.mpr hother
  have horder := pairwise_before_reached heap project root v
  rw [hsplit] at hmem horder
  rcases List.mem_append.mp hmem with hin | hin
  · exact Or.inr ((List.pairwise_append.mp horder).2.2 _ hin last List.mem_cons_self)
  · rcases List.mem_cons.mp hin with heq | hin
    · exact Or.inl (congrArg Reached.path heq)
    · exact absurd (hsame.trans hkey) (hlater _ hin)

end Heap

/-! ## Collecting from a namespace -/

section

variable {s : Session} {root : Root} {v : Value}

/-- What is collected from a namespace is what its paths lead to, up to the first dash. -/
theorem on_collectFrom (before : Text) (hroot : s.heap.rootOf s.project v = .ok root)
    (hlisted : s.heap.HasAllListed s.project root v) (htyped : s.heap.WellTyped s.project root v) :
    let walk := Walk.ofReached before (s.heap.reached s.project root v)
    ∃ collection t, (collectFrom before v).on s = (.ok collection, t) ∧
      collection.stop = walk.stop ∧
      Collection.Covers (Found.IsDeployed s.heap t.heap) .empty walk.found collection := by
  intro walk
  have hwalk : s.heap.discover s.project before v = walk :=
    Heap.discover_eq_ofReached hroot (htyped.readable hroot hlisted)
  have hfound : ∀ f ∈ walk.found, f.parts.IsTyped s.heap := by
    intro f hf
    obtain ⟨r, hr, rfl⟩ := Walk.mem_of_ofReached_found hf
    exact htyped.functions _ _ _ (Heap.mem_reached_iff.mp hr)
  obtain ⟨collection, t, hrun, -, hstop, -, hcovers⟩ := Walk.on_collect hfound
  refine ⟨collection, t, ?_, hstop, hcovers⟩
  simp [collectFrom, hwalk, hrun]

/-- A walk is refused if and only if a path leads to a function with a dash in its name. -/
theorem refused_iff (heap : Heap) (project : Project) (root : Root) (v : Value) (before : Text) :
    (∃ failure, (Walk.ofReached before (heap.reached project root v)).stop = some failure ∧
      failure.kind = .exportName) ↔
      ∃ path function f, heap.HasPath project root v path function f ∧ path.IsDashed := by
  rw [Walk.ofReached_stop]
  constructor
  · rintro ⟨failure, hstop, -⟩
    obtain ⟨r, hr, -⟩ := Option.map_eq_some_iff.mp hstop
    have hdash := List.find?_some hr
    exact ⟨_, _, _, Heap.mem_reached_iff.mp (List.mem_of_find?_eq_some hr),
      of_decide_eq_true hdash⟩
  · rintro ⟨path, function, f, hpath, hdash⟩
    have hmem : (⟨path, function, f⟩ : Reached) ∈ heap.reached project root v :=
      Heap.mem_reached_iff.mpr hpath
    obtain ⟨r, hr⟩ := Option.isSome_iff_exists.mp
      (List.find?_isSome (p := fun r : Reached => decide r.path.IsDashed) |>.mpr
        ⟨_, hmem, decide_eq_true hdash⟩)
    exact ⟨r.refusal before, by rw [hr]; rfl, rfl⟩

section

variable {heap : Heap} {project : Project} {before : Text} {collection : Collection}
  {made : Found → Value → Prop}

theorem contains_iff_hasPath
    (h : Collection.Covers made .empty (heap.allFound project root before v) collection)
    (key : Text) :
    Assoc.contains collection.endpoints key = true ↔
      ∃ path function f, heap.HasPath project root v path function f ∧ path.key before = key := by
  rw [h.contains_endpoints]
  constructor
  · rintro ⟨found, hfound, hkey⟩
    obtain ⟨r, hr, rfl⟩ := List.mem_map.mp hfound
    exact ⟨_, _, _, Heap.mem_reached_iff.mp hr, hkey⟩
  · rintro ⟨path, function, f, hpath, hkey⟩
    exact ⟨_, List.mem_map_of_mem (Heap.mem_reached_iff (r := ⟨path, function, f⟩).mpr hpath), hkey⟩

/-- The endpoint under a key is that of the last path with the key. -/
theorem exists_last_endpoint
    (h : Collection.Covers made .empty (heap.allFound project root before v) collection)
    {r : Reached} (hr : r ∈ heap.reached project root v) :
    ∃ last ∈ heap.reached project root v, last.path.key before = r.path.key before ∧
      heap.IsLast project root v before last.path ∧
      ∃ endpoint, Assoc.get? collection.endpoints (r.path.key before) = some endpoint ∧
        made (last.found before) endpoint := by
  obtain ⟨earlier, last, later, hsplit, hkey, hlater, hlast⟩ :=
    Heap.exists_last_reached before hr
  have hcovers : Collection.Covers made .empty (earlier.map (Reached.found before) ++
      last.found before :: later.map (Reached.found before)) collection := by
    rw [← List.map_cons, ← List.map_append, ← hsplit]
    exact h
  have hothers : ∀ f' ∈ later.map (Reached.found before), f'.key ≠ (last.found before).key := by
    intro f' hf'
    obtain ⟨r', hr', rfl⟩ := List.mem_map.mp hf'
    exact fun hsame => hlater r' hr' (hsame.trans hkey)
  obtain ⟨endpoint, hendpoint, hmade⟩ := hcovers.get?_endpoints hothers
  have hfound : (last.found before).key = r.path.key before := hkey
  rw [hfound] at hendpoint
  exact ⟨last, by simp [hsplit], hkey, hlast, endpoint, hendpoint, hmade⟩

end

/-- A walk ends on every graph. It is refused exactly if a path leads to a function with a dash in
its name; otherwise the keys of the endpoints are those of the paths, and the endpoint under a key
is that of the last path with the key. -/
theorem collectFrom_paths (before : Text) (hroot : s.heap.rootOf s.project v = .ok root)
    (hlisted : s.heap.HasAllListed s.project root v) (htyped : s.heap.WellTyped s.project root v) :
    (∀ fuel, s.heap.cells.size < fuel →
      s.heap.walk s.project root fuel (.start before v) v = s.heap.discover s.project before v) ∧
    ∃ collection t, (collectFrom before v).on s = (.ok collection, t) ∧
      ((∃ failure, collection.stop = some failure ∧ failure.kind = .exportName) ↔
        ∃ path function f, s.heap.HasPath s.project root v path function f ∧ path.IsDashed) ∧
      ((∀ path function f, s.heap.HasPath s.project root v path function f → ¬ path.IsDashed) →
        collection.stop = none ∧
        (∀ key, Assoc.contains collection.endpoints key = true ↔
          ∃ path function f, s.heap.HasPath s.project root v path function f ∧
            path.key before = key) ∧
        ∀ key endpoint, Assoc.get? collection.endpoints key = some endpoint →
          ∃ path function f e, s.heap.HasPath s.project root v path function f ∧
            path.key before = key ∧ s.heap.IsLast s.project root v before path ∧
            s.heap.cell? f.endpoint = some (.endpoint e) ∧
            t.heap.cell? endpoint =
              some (.endpoint (e.withEntryPoint (.text (entryPointOf key))))) := by
  constructor
  · intro fuel hfuel
    have hle := s.heap.unvisited_le_size (Way.start before v).ancestors
    rw [Heap.discover, hroot]
    exact Heap.walk_fuel (by omega) (by omega)
  obtain ⟨collection, t, hrun, hstop, hcovers⟩ := on_collectFrom before hroot hlisted htyped
  refine ⟨_, t, hrun, ?_, fun hclean => ?_⟩
  · rw [hstop]
    exact refused_iff s.heap s.project root v before
  have hnone : ∀ r ∈ s.heap.reached s.project root v, ¬ r.path.IsDashed := fun r hr =>
    hclean _ _ _ (Heap.mem_reached_iff.mp hr)
  rw [Walk.ofReached_found hnone] at hcovers
  refine ⟨hstop.trans (Walk.ofReached_stop_of_clean hnone), contains_iff_hasPath hcovers, ?_⟩
  intro key endpoint hget
  obtain ⟨path, function, f, hpath, rfl⟩ :=
    (contains_iff_hasPath hcovers key).mp (Assoc.contains_of_get? hget)
  obtain ⟨last, hmem, hkey, hlast, endpoint', hget', e, he, hdeployed⟩ :=
    exists_last_endpoint hcovers (Heap.mem_reached_iff (r := ⟨path, function, f⟩).mpr hpath)
  rw [hget] at hget'
  cases hget'
  refine ⟨last.path, _, _, e, Heap.mem_reached_iff.mp hmem, hkey, hlast, he, ?_⟩
  rw [← hkey]
  exact hdeployed

end

/-! ## A namespace with a cycle -/

/-- A module that lists a function and a record. The record has the function too, and itself. -/
def loopHeap : Heap :=
  { Heap.initial with cells :=
      #[.tuple [],
        .module [("__name__", .text "m"), ("__all__", .ref 5), ("f", .ref 3), ("r", .ref 2)],
        .record [("back", .ref 2), ("f", .ref 3)],
        .function ⟨.ref 4, .null, .ref 0⟩,
        .endpoint default,
        .list [.text "f", .text "r"]] }

def loopRoot : Root := ⟨.text "m", none⟩

theorem members_loopHeap {w : Value} {m : Member} (hw : w = .ref 1 ∨ w = .ref 2)
    (hm : m ∈ loopHeap.members w) :
    ∃ name member, m = .found name member ∧ name ∈ [Text.ofString "f", "r", "back"] ∧
      (member = .ref 2 ∨ member = .ref 3) := by
  have hlisted : loopHeap.members (.ref 1) = [.found "f" (.ref 3), .found "r" (.ref 2)] := rfl
  have hfields : loopHeap.members (.ref 2) = [.found "back" (.ref 2), .found "f" (.ref 3)] := rfl
  rcases hw with rfl | rfl
  · rw [hlisted] at hm
    simp only [List.mem_cons, List.not_mem_nil, or_false] at hm
    rcases hm with rfl | rfl <;> exact ⟨_, _, rfl, by simp, by simp⟩
  · rw [hfields] at hm
    simp only [List.mem_cons, List.not_mem_nil, or_false] at hm
    rcases hm with rfl | rfl <;> exact ⟨_, _, rfl, by simp, by simp⟩

theorem visits_loopHeap {before : List Nat} {w : Value}
    (h : loopHeap.Visits default loopRoot [1] (.ref 1) before w) : w = .ref 1 ∨ w = .ref 2 := by
  refine h.of_closed (p := fun w => w = .ref 1 ∨ w = .ref 2) (Or.inl rfl) ?_
  intro u hu name member address hmem hgroup
  obtain ⟨_, _, heq, -, hin⟩ := members_loopHeap hu hmem
  cases heq
  rcases hin with rfl | rfl
  · exact Or.inr rfl
  · cases hgroup

theorem reached_loopHeap : loopHeap.reached default loopRoot (.ref 1) =
    [⟨⟨[], ⟨0, "f"⟩⟩, .ref 3, ⟨.ref 4, .null, .ref 0⟩⟩,
      ⟨⟨[⟨1, "r"⟩], ⟨1, "f"⟩⟩, .ref 3, ⟨.ref 4, .null, .ref 0⟩⟩] := rfl

theorem hasPath_loopHeap {path : MemberPath} {function : Value} {f : CloudFunction}
    (h : loopHeap.HasPath default loopRoot (.ref 1) path function f) :
    path.last.name = "f" ∧ f = ⟨.ref 4, .null, .ref 0⟩ := by
  have hmem := Heap.mem_reached_iff (r := ⟨path, function, f⟩).mpr h
  rw [reached_loopHeap] at hmem
  simp only [List.mem_cons, Reached.mk.injEq, List.not_mem_nil, or_false] at hmem
  rcases hmem with ⟨rfl, -, rfl⟩ | ⟨rfl, -, rfl⟩ <;> exact ⟨rfl, rfl⟩

theorem hasAllListed_loopHeap : loopHeap.HasAllListed default loopRoot (.ref 1) := by
  intro before w hw m hm
  obtain ⟨name, member, hfound, -⟩ := members_loopHeap (visits_loopHeap hw) hm
  exact ⟨name, member, hfound⟩

theorem wellTyped_loopHeap : loopHeap.WellTyped default loopRoot (.ref 1) where
  namespaces := { name := fun _ _ => ⟨"m", rfl⟩, file := ⟨none, rfl, by simp⟩ }
  members before w hw name member hmem := by
    obtain ⟨_, _, heq, -, hin⟩ := members_loopHeap (visits_loopHeap hw) hmem
    cases heq
    rcases hin with rfl | rfl
    all_goals exact { name := fun _ h => (by cases h), file := ⟨none, rfl, by simp⟩ }
  functions path function f hpath := by
    rw [(hasPath_loopHeap hpath).2]
    exact ⟨⟨default, rfl⟩, [], rfl⟩

/-- The function is kept under two keys, although the record leads back to itself. -/
theorem collectFrom_paths_loopHeap :
    ∃ collection t,
      (collectFrom "p-" (.ref 1)).on { Session.fresh default default with heap := loopHeap } =
        (.ok collection, t) ∧
      collection.stop = none ∧
      Assoc.contains collection.endpoints "p-f" = true ∧
      Assoc.contains collection.endpoints "p-r-f" = true := by
  let s : Session := { Session.fresh default default with heap := loopHeap }
  have hroot : s.heap.rootOf s.project (.ref 1) = .ok loopRoot := rfl
  obtain ⟨-, collection, t, hrun, -, hclean⟩ :=
    collectFrom_paths "p-" hroot hasAllListed_loopHeap wellTyped_loopHeap
  have hdash : ¬ Letter.char '-' ∈ Text.ofString "f" := by decide
  obtain ⟨hstop, hkeys, -⟩ := hclean fun path function f hpath hpathDash =>
    hdash ((hasPath_loopHeap hpath).1 ▸ hpathDash)
  have hpaths : ∀ r ∈ loopHeap.reached default loopRoot (.ref 1),
      Assoc.contains collection.endpoints (r.path.key "p-") = true := fun r hr =>
    (hkeys _).mpr ⟨_, _, _, Heap.mem_reached_iff.mp hr, rfl⟩
  rw [reached_loopHeap] at hpaths
  simp only [List.forall_mem_cons] at hpaths
  exact ⟨collection, t, hrun, hstop, hpaths.1, hpaths.2.1⟩

end FunctionManifest
