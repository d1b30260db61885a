import FunctionManifest.Proofs.Discovery.Endpoints
import FunctionManifest.Proofs.Text.Separated
import Mathlib.Data.List.Nodup

/-!
# Keys and paths

Dashes join the names of a path to its key, and nothing but the name of the function is kept free of
them. So a key stands for one path only as long as no other path has the same pieces.
-/

namespace FunctionManifest

open Eval

namespace MemberPath

/-- The names of the path, split at the dashes that are in them. -/
def pieces (path : MemberPath) : List Text := path.names.flatMap (Text.split '-')

/-- Two paths have one key if they have the same pieces, and not otherwise. -/
theorem key_eq_key_iff (before : Text) (path other : MemberPath) :
    path.key before = other.key before ↔ path.pieces = other.pieces := by
  unfold key pieces
  rw [List.append_right_inj]
  exact Text.join_eq_join_iff '-' path.names_ne_nil other.names_ne_nil

/-- Names without dashes are their own pieces. -/
theorem pieces_of_plain {path : MemberPath} (h : ∀ name ∈ path.names, Letter.char '-' ∉ name) :
    path.pieces = path.names :=
  Text.flatMap_split_of_not_mem h

/-- Paths without dashes have one key only if they go by the same names. -/
theorem names_eq_of_key_eq {before : Text} {path other : MemberPath}
    (h : ∀ name ∈ path.names, Letter.char '-' ∉ name)
    (h' : ∀ name ∈ other.names, Letter.char '-' ∉ name)
    (hkey : path.key before = other.key before) :
    path.names = other.names := by
  rw [← pieces_of_plain h, ← pieces_of_plain h']
  exact (key_eq_key_iff before path other).mp hkey

theorem not_before_self (path : MemberPath) : ¬ path.Before path :=
  List.lex_irrefl (fun _ => Nat.lt_irrefl _) _

end MemberPath

namespace Heap

variable {heap : Heap} {project : Project} {root : Root} {v : Value}

/-- No two paths to functions have the same pieces. -/
def TellsApart (heap : Heap) (project : Project) (root : Root) (v : Value) : Prop :=
  ∀ path function f other function' f', heap.HasPath project root v path function f →
    heap.HasPath project root v other function' f' → path.pieces = other.pieces → path = other

theorem nodup_paths_reached (heap : Heap) (project : Project) (root : Root) (v : Value) :
    ((heap.reached project root v).map Reached.path).Nodup := by
  refine List.pairwise_map.mpr ((pairwise_before_reached heap project root v).imp ?_)
  intro r r' hbefore hsame
  rw [hsame] at hbefore
  exact MemberPath.not_before_self _ hbefore

/-- The keys are all different if and only if the pieces tell the paths apart. -/
theorem nodup_keys_iff (before : Text) :
    ((heap.reached project root v).map fun r => r.path.key before).Nodup ↔
      heap.TellsApart project root v := by
  have hpaths := nodup_paths_reached heap project root v
  constructor
  · intro hkeys path function f other function' f' hpath hother hpieces
    have hsame := List.inj_on_of_nodup_map hkeys
      (mem_reached_iff (r := ⟨path, function, f⟩).mpr hpath)
      (mem_reached_iff (r := ⟨other, function', f'⟩).mpr hother)
      ((MemberPath.key_eq_key_iff before path other).mpr hpieces)
    exact congrArg Reached.path hsame
  · intro happart
    refine List.Nodup.map_on ?_ (List.Nodup.of_map _ hpaths)
    intro r hr r' hr' hkey
    refine List.inj_on_of_nodup_map hpaths hr hr' ?_
    exact happart _ _ _ _ _ _ (mem_reached_iff.mp hr) (mem_reached_iff.mp hr')
      ((MemberPath.key_eq_key_iff before r.path r'.path).mp hkey)

end Heap

/-! ## Collections that nothing ended -/

section

variable {s t : Session} {root : Root} {v : Value} {before : Text} {collection : Collection}

/-- A collection that nothing ended has every function that a path leads to. -/
theorem Collection.Covers.of_collectFrom (hroot : s.heap.rootOf s.project v = .ok root)
    (hrun : (collectFrom before v).on s = (.ok collection, t)) (hstop : collection.stop = none) :
    Covers (fun _ _ => True) .empty (s.heap.allFound s.project root before v) collection := by
  rw [collectFrom, on_bind, on_get, next_ok, Walk.collect, on_bind, next_eq_ok_iff] at hrun
  obtain ⟨gathered, u, hgathered, hrun⟩ := hrun
  cases hrun
  have hstops : gathered.stop = none ∧ (s.heap.discover s.project before v).stop = none := by
    cases h : gathered.stop with
    | none => simpa [h] using hstop
    | some failure => simp [h] at hstop
  have hwalk : (s.heap.walk s.project root (s.heap.cells.size + 1) (.start before v) v).stop =
      none := by
    have h := hstops.2
    rwa [Heap.discover, hroot] at h
  have hreadable := Heap.Readable.of_walk_stop hwalk
  rw [Heap.ancestors_start] at hreadable
  rw [Heap.discover_eq_ofReached hroot hreadable] at hgathered hstops
  have hclean : ∀ r ∈ s.heap.reached s.project root v, ¬ r.path.IsDashed := by
    have h := hstops.2
    rw [Walk.ofReached_stop, Option.map_eq_none_iff, List.find?_eq_none] at h
    simpa using h
  rw [Walk.ofReached_found hclean] at hgathered
  exact ⟨(of_addAll hgathered hstops.1).endpoints, (of_addAll hgathered hstops.1).handlers⟩

/-- What is collected from a namespace, entry by entry and without loss. -/
structure Collection.KeepsAll (collection : Collection) (heap : Heap) (project : Project)
    (root : Root) (before : Text) (v : Value) : Prop where
  endpoints : collection.endpoints.map Prod.fst =
    (heap.reached project root v).map fun r => r.path.key before
  handlers : collection.handlers =
    (heap.reached project root v).map fun r => (r.path.key before, r.function)

/-- Different paths have different keys, and so no function replaces another one, if and only if
the pieces of their names tell the paths apart. -/
theorem collectFrom_keepsAll_iff (hroot : s.heap.rootOf s.project v = .ok root)
    (hrun : (collectFrom before v).on s = (.ok collection, t)) (hstop : collection.stop = none) :
    ((∀ path function f other function' f', s.heap.HasPath s.project root v path function f →
        s.heap.HasPath s.project root v other function' f' →
        path.key before = other.key before → path = other) ↔
      s.heap.TellsApart s.project root v) ∧
    (collection.KeepsAll s.heap s.project root before v ↔
      s.heap.TellsApart s.project root v) := by
  constructor
  · simp only [MemberPath.key_eq_key_iff, Heap.TellsApart]
  have hcovers := Collection.Covers.of_collectFrom hroot hrun hstop
  obtain ⟨kept, hkept, -, hendpoints⟩ := hcovers.endpoints
  have hkeys : kept.map (fun entry => entry.1.key) =
      (s.heap.reached s.project root v).map fun r => r.path.key before := by
    have h := congrArg (List.map Found.key) hkept
    simpa [Heap.allFound, Function.comp_def, Reached.found] using h
  rw [← Heap.nodup_keys_iff before]
  constructor
  · intro hkeeps
    have hempty : (Collection.empty.endpoints.map Prod.fst).Nodup := List.nodup_nil
    rw [← hkeeps.endpoints, hendpoints]
    exact Assoc.nodup_keys_setAll hempty _
  · intro hnodup
    constructor
    · rw [hendpoints, Collection.empty, Assoc.setAll_nil_of_nodup]
      · simpa [Function.comp_def] using hkeys
      · rw [List.map_map]
        exact hkeys ▸ hnodup
    · rw [hcovers.handlers, Collection.empty, Assoc.setAll_nil_of_nodup]
      · simp [Heap.allFound, Function.comp_def, Reached.found]
      · simpa [Heap.allFound, Function.comp_def, Reached.found] using hnodup

end

/-- In the namespace with a cycle nothing replaces anything. -/
theorem collectFrom_keepsAll_loopHeap :
    ∃ collection t,
      (collectFrom "p-" (.ref 1)).on { Session.fresh default default with heap := loopHeap } =
        (.ok collection, t) ∧
      collection.stop = none ∧ collection.KeepsAll loopHeap default loopRoot "p-" (.ref 1) := by
  let s : Session := { Session.fresh default default with heap := loopHeap }
  obtain ⟨collection, t, hrun, hstop⟩ : ∃ collection t,
      (collectFrom "p-" (.ref 1)).on s = (.ok collection, t) ∧ collection.stop = none :=
    ⟨_, _, rfl, rfl⟩
  have hroot : s.heap.rootOf s.project (.ref 1) = .ok loopRoot := rfl
  have happart : s.heap.TellsApart s.project loopRoot (.ref 1) := by
    refine (Heap.nodup_keys_iff "p-").mp ?_
    change ((loopHeap.reached default loopRoot (.ref 1)).map _).Nodup
    rw [reached_loopHeap]
    decide
  exact ⟨collection, t, hrun, hstop, (collectFrom_keepsAll_iff hroot hrun hstop).2.mpr happart⟩

/-! ## Groups with dashes -/

/-- A group with a dash in its name beside two groups that go by its pieces. -/
def dashHeap : Heap :=
  { Heap.initial with cells :=
      #[.tuple [],
        .mapping [(.text "a-b", .ref 2), (.text "a", .ref 3)],
        .mapping [(.text "c", .ref 5)],
        .mapping [(.text "b", .ref 4)],
        .mapping [(.text "c", .ref 6)],
        .function ⟨.ref 7, .text "one", .ref 0⟩,
        .function ⟨.ref 7, .text "two", .ref 0⟩,
        .endpoint ⟨.https, .ref 8, .text [], .null, .ref 8, .ref 8⟩,
        .mapping []] }

theorem reached_dashHeap : dashHeap.reached default ⟨.text [], none⟩ (.ref 1) =
    [⟨⟨[⟨0, "a-b"⟩], ⟨0, "c"⟩⟩, .ref 5, ⟨.ref 7, .text "one", .ref 0⟩⟩,
      ⟨⟨[⟨1, "a"⟩, ⟨0, "b"⟩], ⟨0, "c"⟩⟩, .ref 6, ⟨.ref 7, .text "two", .ref 0⟩⟩] := rfl

/-- Two functions at different paths have one key, and only the second one is kept. -/
theorem collectFrom_dashHeap_loses :
    ∃ collection t first second f f',
      (collectFrom [] (.ref 1)).on { Session.fresh default default with heap := dashHeap } =
        (.ok collection, t) ∧
      collection.stop = none ∧
      dashHeap.HasPath default ⟨.text [], none⟩ (.ref 1) first (.ref 5) f ∧
      dashHeap.HasPath default ⟨.text [], none⟩ (.ref 1) second (.ref 6) f' ∧
      first.names ≠ second.names ∧ first.key [] = second.key [] ∧
      collection.handlers = [(Text.ofString "a-b-c", .ref 6)] := by
  have hpaths : ∀ r ∈ dashHeap.reached default ⟨.text [], none⟩ (.ref 1),
      dashHeap.HasPath default ⟨.text [], none⟩ (.ref 1) r.path r.function r.parts :=
    fun r hr => Heap.mem_reached_iff.mp hr
  rw [reached_dashHeap] at hpaths
  simp only [List.forall_mem_cons] at hpaths
  exact ⟨_, _, _, _, _, _, rfl, rfl, hpaths.1, hpaths.2.1, by decide, by decide, rfl⟩

end FunctionManifest
