import FunctionManifest.Proofs.Discovery.Stops

/-!
# Collections in step

Wherever a walk ends, what was collected until then fits together: endpoints and handlers have the
same keys, an endpoint is that of the handler under its key, and the required APIs are those of all
functions that were visited.
-/

namespace FunctionManifest

open Eval

namespace Heap

section

variable (heap : Heap) (project : Project)

/-- A stop that a walk from a namespace can come to, with the places on the way. -/
def HasStop (root : Root) (before : Text) (v : Value) (places : List Nat) (failure : Failure) :
    Prop :=
  ∃ groups, heap.Stops project root before v places groups failure ∧
    ((Way.start [] v).ancestors ++ groups).Nodup

/-- The function comes before everything that a walk from the namespace cannot get past. -/
def IsVisited (before : Text) (v : Value) (r : Reached) : Prop :=
  ∃ root, heap.rootOf project v = .ok root ∧
    heap.HasPath project root v r.path r.function r.parts ∧
    ∀ places failure, heap.HasStop project root before v places failure →
      ComesBefore r.path.places places

/-- A walk ends with the failure of the first stop, or without one if there is no stop. If the
namespace itself cannot be told, nothing is walked. -/
def EndsWith (before : Text) (v : Value) : Option Failure → Prop
  | none => ∃ root, heap.rootOf project v = .ok root ∧
      ∀ places failure, ¬ heap.HasStop project root before v places failure
  | some failure => heap.rootOf project v = .error failure ∨
      ∃ root places, heap.rootOf project v = .ok root ∧
        heap.HasStop project root before v places failure ∧
        ∀ places' failure', heap.HasStop project root before v places' failure' →
          places' = places ∧ failure' = failure ∨ ComesBefore places places'

end

variable {heap : Heap} {project : Project} {root : Root} {v : Value}

theorem hasStop_iff {before : Text} {places : List Nat} {failure : Failure} :
    heap.HasStop project root before v places failure ↔
      heap.StopsBelow project root (Way.start [] v).ancestors before v places failure := by
  unfold HasStop StopsBelow
  refine exists_congr fun groups => and_congr_right fun _ => ?_
  rw [List.nodup_append]
  constructor
  · rintro ⟨-, hnodup, hdisjoint⟩
    exact ⟨hnodup, fun a ha hin => hdisjoint a hin a ha rfl⟩
  · rintro ⟨hnodup, hfresh⟩
    exact ⟨nodup_ancestors_start v, hnodup, fun a ha b hb hab => hfresh b hb (hab ▸ ha)⟩

theorem discover_endsAt (before : Text) (hroot : heap.rootOf project v = .ok root) :
    Walk.EndsAt before (heap.discover project before v) (heap.reached project root v)
      (heap.HasStop project root before v) := by
  have hfuel : heap.unvisited (Way.start before v).ancestors < heap.cells.size + 1 :=
    Nat.lt_succ_of_le (heap.unvisited_le_size _)
  have hwalk : Walk.EndsAt (Way.start before v).groups
      (heap.walk project root (heap.cells.size + 1) (.start before v) v) _ _ := walk_endsAt hfuel
  rw [groups_start, ancestors_start] at hwalk
  rw [discover, hroot]
  exact hwalk.congr fun places failure => hasStop_iff.symm

/-- What a walk finds is what is visited, in the order of the paths. -/
theorem discover_visited (heap : Heap) (project : Project) (before : Text) (v : Value) :
    ∃ visited : List Reached,
      (heap.discover project before v).found = visited.map (Reached.found before) ∧
      (∀ r, r ∈ visited ↔ heap.IsVisited project before v r) ∧
      visited.Pairwise (fun r r' => r.path.Before r'.path) ∧
      heap.EndsWith project before v (heap.discover project before v).stop := by
  cases hroot : heap.rootOf project v with
  | error failure =>
    have hnothing : ∀ r, ¬ heap.IsVisited project before v r := by
      rintro r ⟨root, hok, -⟩
      cases hroot.symm.trans hok
    refine ⟨[], ?_, fun r => by simp [hnothing r], .nil, ?_⟩
    · rw [discover, hroot]
      rfl
    · rw [discover, hroot]
      exact .inl hroot
  | ok root =>
    have hvisited : ∀ r, heap.IsVisited project before v r ↔
        r ∈ heap.reached project root v ∧ ∀ places failure,
          heap.HasStop project root before v places failure → ComesBefore r.path.places places := by
      intro r
      rw [mem_reached_iff]
      constructor
      · rintro ⟨root', hok, hpath, hbefore⟩
        obtain rfl := Except.ok.inj (hroot.symm.trans hok)
        exact ⟨hpath, hbefore⟩
      · rintro ⟨hpath, hbefore⟩
        exact ⟨root, hroot, hpath, hbefore⟩
    have horder := pairwise_before_reached heap project root v
    cases discover_endsAt before hroot with
    | whole hwalk hnone =>
      refine ⟨heap.reached project root v, by rw [hwalk], fun r => ?_, horder, ?_⟩
      · rw [hvisited]
        exact ⟨fun hr => ⟨hr, fun places failure h => absurd h (hnone places failure)⟩, And.left⟩
      · rw [hwalk]
        exact ⟨root, hroot, hnone⟩
    | @cut visited rest places failure hwalk hreached hstops hbefore hrest hfirst =>
      refine ⟨visited, by rw [hwalk], fun r => ?_, ?_, ?_⟩
      · rw [hvisited, hreached]
        constructor
        · -- What is before the first stop is before all others, too.
          refine fun hr => ⟨List.mem_append_left _ hr, fun places' failure' hstops' => ?_⟩
          obtain ⟨rfl, -⟩ | hlater := hfirst places' failure' hstops'
          · exact hbefore r hr
          · exact List.lex_trans Nat.lt_trans (hbefore r hr) hlater
        · rintro ⟨hr, hall⟩
          rcases List.mem_append.mp hr with hin | hin
          · exact hin
          · exact absurd (hall places failure hstops) (hrest r hin)
      · rw [hreached] at horder
        exact (List.pairwise_append.mp horder).1
      · rw [hwalk]
        exact .inr ⟨root, places, hroot, hstops, hfirst⟩

end Heap

/-! ## Collecting what is visited -/

section

variable {s : Session} {v : Value} {before : Text}

theorem on_collectFrom_visited
    (htyped : ∀ r, s.heap.IsVisited s.project before v r → r.parts.IsTyped s.heap) :
    ∃ (collection : Collection) (t : Session) (visited : List Reached),
      (collectFrom before v).on s = (.ok collection, t) ∧ t.heap.Extends s.heap ∧
      (∀ r, r ∈ visited ↔ s.heap.IsVisited s.project before v r) ∧
      visited.Pairwise (fun r r' => r.path.Before r'.path) ∧
      s.heap.EndsWith s.project before v collection.stop ∧
      collection.requiredApis = visited.flatMap (·.parts.apis s.heap) ∧
      Collection.Covers (Found.IsDeployed s.heap t.heap) .empty
        (visited.map (Reached.found before)) collection := by
  obtain ⟨visited, hfound, hvisited, horder, hends⟩ := s.heap.discover_visited s.project before v
  have hall : ∀ f ∈ (s.heap.discover s.project before v).found, f.parts.IsTyped s.heap := by
    rw [hfound]
    intro f hf
    obtain ⟨r, hr, rfl⟩ := List.mem_map.mp hf
    exact htyped r ((hvisited r).mp hr)
  obtain ⟨collection, t, hrun, hext, hstop, hapis, hcovers⟩ := Walk.on_collect hall
  refine ⟨collection, t, visited, ?_, hext, hvisited, horder, hstop ▸ hends, ?_, hfound ▸ hcovers⟩
  · simp [collectFrom, hrun]
  · rw [hapis, hfound, List.flatMap_map]
    rfl

/-- What is kept under a key came of one function that was visited. -/
theorem exists_visited_of_endpoint {visited : List Reached} {collection : Collection}
    {made : Found → Value → Prop} {key : Text} {endpoint : Value}
    (h : Collection.Covers made .empty (visited.map (Reached.found before)) collection)
    (hget : Assoc.get? collection.endpoints key = some endpoint) :
    ∃ r ∈ visited, r.path.key before = key ∧
      Assoc.get? collection.handlers key = some r.function ∧ made (r.found before) endpoint := by
  obtain ⟨kept, -, hentries, hendpoints, hhandlers⟩ := h.kept
  rw [hendpoints, Assoc.get?_map Prod.snd, Option.map_eq_some_iff] at hget
  obtain ⟨⟨found, endpoint⟩, hkept, rfl⟩ := hget
  obtain ⟨hin, hkey, hmade⟩ := hentries _ (Assoc.mem_of_get? hkept)
  obtain ⟨r, hr, rfl⟩ := List.mem_map.mp hin
  refine ⟨r, hr, hkey, ?_, hmade⟩
  rw [hhandlers, Assoc.get?_map fun kept : Found × Value => kept.1.function, hkept]
  rfl

theorem Heap.IsVisited.cell? {heap : Heap} {project : Project} {r : Reached}
    (h : heap.IsVisited project before v r) : heap.cell? r.function = some (.function r.parts) := by
  obtain ⟨root, -, ⟨groups, hleads, -⟩, -⟩ := h
  exact hleads.cell?

/-- Wherever a walk ends, at whatever depth, the collections are in step. Endpoints and handlers have
the same keys in the same order, and under each key there is the endpoint of the handler there, with
the key for its entry point. The required APIs are those of every function that was visited, also if
another one took its key. -/
theorem collectFrom_inStep (s : Session) (before : Text) (v : Value)
    (htyped : ∀ r, s.heap.IsVisited s.project before v r → r.parts.IsTyped s.heap) :
    ∃ (collection : Collection) (t : Session) (visited : List Reached),
      (collectFrom before v).on s = (.ok collection, t) ∧
      t.heap.Extends s.heap ∧
      (∀ r, r ∈ visited ↔ s.heap.IsVisited s.project before v r) ∧
      visited.Pairwise (fun r r' => r.path.Before r'.path) ∧
      s.heap.EndsWith s.project before v collection.stop ∧
      collection.requiredApis = visited.flatMap (·.parts.apis s.heap) ∧
      collection.handlers =
        Assoc.ofList (visited.map fun r => (r.path.key before, r.function)) ∧
      collection.endpoints.map Prod.fst = collection.handlers.map Prod.fst ∧
      ∀ key endpoint, Assoc.get? collection.endpoints key = some endpoint →
        ∃ function f e, Assoc.get? collection.handlers key = some function ∧
          s.heap.cell? function = some (.function f) ∧
          s.heap.cell? f.endpoint = some (.endpoint e) ∧
          t.heap.cell? endpoint =
            some (.endpoint (e.withEntryPoint (.text (Text.replace '-' '.' key)))) := by
  obtain ⟨collection, t, visited, hrun, hext, hvisited, horder, hends, hapis, hcovers⟩ :=
    on_collectFrom_visited htyped
  refine ⟨collection, t, visited, hrun, hext, hvisited, horder, hends, hapis, ?_, ?_, ?_⟩
  · rw [hcovers.handlers, List.map_map]
    rfl
  · obtain ⟨kept, -, -, hendpoints, hhandlers⟩ := hcovers.kept
    rw [hendpoints, hhandlers, List.map_map, List.map_map]
    rfl
  · intro key endpoint hget
    obtain ⟨r, hr, rfl, hhandler, e, he, hdeployed⟩ := exists_visited_of_endpoint hcovers hget
    exact ⟨r.function, r.parts, e, hhandler, ((hvisited r).mp hr).cell?, he, hdeployed⟩

end

/-! ## A stop below a group -/

/-- A function on both sides of a group that has it too, and again under a name with a dash. -/
def groupHeap : Heap :=
  { Heap.initial with cells :=
      #[.tuple [],
        .mapping [(.text "f", .ref 3), (.text "g", .ref 2), (.text "h", .ref 3)],
        .mapping [(.text "f", .ref 3), (.text "a-b", .ref 3), (.text "c", .ref 3)],
        .function ⟨.ref 4, .null, .ref 5⟩,
        .endpoint default,
        .tuple [.ref 6],
        .api ⟨.text "a", .text "r"⟩] }

theorem parts_of_hasPath_groupHeap {path : MemberPath} {function : Value} {f : CloudFunction}
    (h : groupHeap.HasPath default ⟨.text [], none⟩ (.ref 1) path function f) :
    f = ⟨.ref 4, .null, .ref 5⟩ := by
  have hmem := Heap.mem_reached_iff (r := ⟨path, function, f⟩).mpr h
  have hreached : ∀ r ∈ groupHeap.reached default ⟨.text [], none⟩ (.ref 1),
      r.parts = ⟨.ref 4, .null, .ref 5⟩ := by
    change ∀ r ∈ [_, _, _, _, _], _
    simp [Reached.through]
  exact hreached _ hmem

/-- The walk is stopped inside the group, with the function before the group and the first one in
it collected. -/
theorem collectFrom_inStep_groupHeap :
    ∃ collection t,
      (collectFrom "p-" (.ref 1)).on { Session.fresh default default with heap := groupHeap } =
        (.ok collection, t) ∧
      collection.stop = some (.ofDashedName "a-b" "p-g-") ∧
      collection.handlers = [(Text.ofString "p-f", .ref 3), ("p-g-f", .ref 3)] ∧
      collection.endpoints.map Prod.fst = collection.handlers.map Prod.fst ∧
      collection.requiredApis = [.ref 6, .ref 6] := by
  let s : Session := { Session.fresh default default with heap := groupHeap }
  have htyped : ∀ r, s.heap.IsVisited s.project "p-" (.ref 1) r → r.parts.IsTyped s.heap := by
    rintro r ⟨root, hroot, hpath, -⟩
    cases hroot
    rw [parts_of_hasPath_groupHeap hpath]
    exact ⟨⟨default, rfl⟩, [.ref 6], rfl⟩
  obtain ⟨collection, t, -, hrun, -, -, -, -, -, -, hkeys, -⟩ :=
    collectFrom_inStep s "p-" (.ref 1) htyped
  have hresult : ((collectFrom "p-" (.ref 1)).on s).1.toOption.map (fun c =>
      (c.stop, c.handlers, c.requiredApis)) =
        some (some (.ofDashedName "a-b" "p-g-"),
          [(Text.ofString "p-f", .ref 3), (Text.ofString "p-g-f", .ref 3)], [.ref 6, .ref 6]) := rfl
  rw [hrun] at hresult
  simp only [Except.toOption, Option.map_some, Option.some.injEq, Prod.mk.injEq] at hresult
  exact ⟨collection, t, hrun, hresult.1, hresult.2.1, hkeys, hresult.2.2⟩

end FunctionManifest
