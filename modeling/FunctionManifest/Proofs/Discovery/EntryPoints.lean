import FunctionManifest.Proofs.Discovery.InStep
import FunctionManifest.Proofs.Manifest.RequiredApi
import Mathlib.Data.List.Nodup

/-!
# Following an entry point

An entry point is the names from a namespace to a function, joined by points. As long as no name
has a dash or a point, following the names of a key from group to group leads to the handler under
it.
-/

namespace FunctionManifest

open Eval

namespace Heap

/-! ## One name -/

/-- The item of a mapping under a name, or else the attribute with it. -/
def memberNamed? (heap : Heap) (v : Value) (name : Text) : Option Value :=
  match heap.cell? v with
  | some (.mapping entries) => (heap.lookEntry entries (.text name)).toOption.join
  | _ => heap.stored? v name

end Heap

/-- What the members of a namespace are kept under. -/
def Cell.memberKeys : Cell → List Value
  | .module fields | .record fields => fields.map fun field => .text field.1
  | .mapping entries => entries.map Prod.fst
  | _ => []

namespace Heap

variable {heap : Heap} {project : Project} {root : Root} {v member : Value} {name : Text}

theorem mem_of_found_publicMembers {fields : Fields}
    (h : .found name member ∈ publicMembers fields) : (name, member) ∈ fields := by
  obtain ⟨field, hfield, heq⟩ := List.mem_map.mp h
  cases heq
  exact (List.mem_filter.mp hfield).1

theorem mem_of_found_namedEntries {entries : Entries}
    (h : .found name member ∈ namedEntries entries) : (.text name, member) ∈ entries := by
  obtain ⟨⟨key, value⟩, hentry, heq⟩ := List.mem_filterMap.mp h
  cases key with
  | text name' =>
    cases heq
    exact hentry
  | _ => cases heq

theorem stored?_of_listedMember {module listed : Value} {cell : Cell}
    (h : heap.listedMember module listed = .found name member)
    (hcell : heap.cell? member = some cell) : heap.stored? module name = some member := by
  unfold listedMember at h
  split at h
  · split at h
    · cases h
      assumption
    · -- What every module has is listed as null, which is no object.
      split at h
      · cases h
        cases hcell
      · cases h
  · cases h

theorem stored?_of_mem {cell : Cell} {fields : Fields} (hcell : heap.cell? v = some cell)
    (hfields : cell.attributes = fields)
    (hnodup : (fields.map fun field => Value.text field.1).Nodup) (hmem : (name, member) ∈ fields) :
    heap.stored? v name = some member := by
  have hkeys : (fields.map Prod.fst).Nodup := by
    refine List.Nodup.of_map Value.text ?_
    rwa [List.map_map]
  have hget := Assoc.get?_of_mem hkeys hmem
  exact stored?_of_cell? hcell (by simp [Cell.stored?, hfields, hget])

/-- What is met as a member of a namespace is found there by its name. -/
theorem memberNamed?_of_found {cell : Cell}
    (hnodup : ∀ cell, heap.cell? v = some cell → cell.memberKeys.Nodup)
    (hmem : .found name member ∈ heap.members v) (hcell : heap.cell? member = some cell) :
    heap.memberNamed? v name = some member := by
  unfold members at hmem
  unfold memberNamed?
  split at hmem
  · rename_i attributes hv
    simp only [hv]
    unfold moduleMembers at hmem
    split at hmem
    · exact stored?_of_mem hv rfl (hnodup _ hv) (mem_of_found_publicMembers hmem)
    · split at hmem
      · obtain ⟨listed, -, hlisted⟩ := List.mem_map.mp hmem
        exact stored?_of_listedMember hlisted hcell
      · simp at hmem
  · rename_i fields hv
    simp only [hv]
    exact stored?_of_mem hv rfl (hnodup _ hv) (mem_of_found_publicMembers hmem)
  · rename_i entries hv
    simp only [hv]
    rw [lookEntry_text, Assoc.get?_of_mem (hnodup _ hv) (mem_of_found_namedEntries hmem)]
    rfl
  · cases hmem

/-! ## Name by name -/

/-- What the names lead to one after the other, through groups only. -/
def follow? (heap : Heap) (project : Project) (root : Root) (v : Value) : List Text → Option Value
  | [] => some v
  | [name] => heap.memberNamed? v name
  | name :: rest => do
    let member ← heap.memberNamed? v name
    match heap.group? project root member with
    | .ok (some _) => heap.follow? project root member rest
    | _ => none

/-- The namespace has one member under each key, as every dictionary does, and no member whose name
has a dash or a point. -/
structure HasPlainNames (heap : Heap) (v : Value) : Prop where
  nodup : ∀ cell, heap.cell? v = some cell → cell.memberKeys.Nodup
  plain : ∀ name member, .found name member ∈ heap.members v →
    Letter.char '-' ∉ name ∧ Letter.char '.' ∉ name

theorem follow?_cons {names : List Text} {address : Nat}
    (hname : heap.memberNamed? v name = some member)
    (hgroup : heap.group? project root member = .ok (some address)) (hnames : names ≠ []) :
    heap.follow? project root v (name :: names) = heap.follow? project root member names := by
  obtain ⟨next, rest, rfl⟩ := List.exists_cons_of_ne_nil hnames
  simp [follow?, hname, hgroup]

/-- The names of a path lead where the path does. -/
theorem Leads.follow? {ancestors groups : List Nat} {path : MemberPath} {function : Value}
    {f : CloudFunction} (h : heap.Leads project root v path groups function f)
    (hnodup : (ancestors ++ groups).Nodup)
    (hplain : ∀ before w, heap.Visits project root ancestors v before w → heap.HasPlainNames w) :
    heap.follow? project root v path.names = some function ∧
      ∀ name ∈ path.names, Letter.char '-' ∉ name ∧ Letter.char '.' ∉ name := by
  induction h generalizing ancestors with
  | @function v place name member f hmem hcell =>
    have hin := List.mem_of_getElem? hmem
    have hhere := hplain _ _ .start
    have hnames : (⟨[], ⟨place, name⟩⟩ : MemberPath).names = [name] := rfl
    rw [hnames]
    refine ⟨memberNamed?_of_found hhere.nodup hin hcell, fun other hother => ?_⟩
    rw [List.mem_singleton.mp hother]
    exact hhere.plain _ _ hin
  | @group v place name member address path groups function f hmem hgroup hleads ih =>
    have hin := List.mem_of_getElem? hmem
    have hhere := hplain _ _ .start
    have hfresh : address ∉ ancestors := fun hold =>
      (List.nodup_append.mp hnodup).2.2 _ hold _ List.mem_cons_self rfl
    have hbelow : (address :: ancestors ++ groups).Nodup :=
      (List.perm_middle.nodup_iff).mp hnodup
    -- Below the group the ancestors have one more, as they do on the way there.
    obtain ⟨hfollow, hnames⟩ := ih hbelow fun before w hw =>
      hplain before w (hw.of_group hin hgroup hfresh)
    obtain ⟨rfl, hlt⟩ := group?_lt_size hgroup
    have hname := memberNamed?_of_found hhere.nodup hin (Array.getElem?_eq_getElem hlt)
    refine ⟨(follow?_cons hname hgroup path.names_ne_nil).trans hfollow, fun other hother => ?_⟩
    rcases List.mem_cons.mp hother with rfl | hother
    · exact hhere.plain _ _ hin
    · exact hnames other hother

end Heap

/-! ## From keys to handlers -/

section

variable {s : Session} {root : Root} {v : Value}

/-- However far a walk gets, the names of each key lead to the handler under it, and the entry point
of the endpoint there has the same names. -/
theorem collectFrom_resolves (hroot : s.heap.rootOf s.project v = .ok root)
    (hplain : ∀ before w, s.heap.Visits s.project root (Way.start [] v).ancestors v before w →
      s.heap.HasPlainNames w)
    (htyped : ∀ r, s.heap.IsVisited s.project [] v r → r.parts.IsTyped s.heap) :
    ∃ (collection : Collection) (t : Session),
      (collectFrom [] v).on s = (.ok collection, t) ∧ t.heap.Extends s.heap ∧
      ∀ key endpoint, Assoc.get? collection.endpoints key = some endpoint →
        ∃ function f e point, Assoc.get? collection.handlers key = some function ∧
          s.heap.cell? function = some (.function f) ∧
          s.heap.cell? f.endpoint = some (.endpoint e) ∧
          t.heap.cell? endpoint = some (.endpoint (e.withEntryPoint (.text point))) ∧
          Text.split '.' point = Text.split '-' key ∧
          s.heap.follow? s.project root v (Text.split '-' key) = some function := by
  obtain ⟨collection, t, visited, hrun, hext, hvisited, -, -, -, hcovers⟩ :=
    on_collectFrom_visited htyped
  refine ⟨collection, t, hrun, hext, fun key endpoint hget => ?_⟩
  obtain ⟨r, hr, rfl, hhandler, e, he, hdeployed⟩ := exists_visited_of_endpoint hcovers hget
  obtain ⟨root', hroot', ⟨groups, hleads, hnodup⟩, -⟩ := (hvisited r).mp hr
  cases hroot.symm.trans hroot'
  obtain ⟨hfollow, hnames⟩ := hleads.follow? hnodup hplain
  have hdashes : Text.split '-' (r.path.key []) = r.path.names :=
    Text.split_join_of_not_mem r.path.names_ne_nil fun name hname => (hnames name hname).1
  have hpoint : entryPointOf (r.path.key []) = Text.join ['.'] r.path.names :=
    Text.replace_join fun name hname => (hnames name hname).1
  have hpoints : Text.split '.' (entryPointOf (r.path.key [])) = r.path.names := by
    rw [hpoint]
    exact Text.split_join_of_not_mem r.path.names_ne_nil fun name hname => (hnames name hname).2
  refine ⟨r.function, r.parts, e, _, hhandler, hleads.cell?, he, hdeployed, ?_, ?_⟩
  · rw [hdashes]
    exact hpoints
  · rw [hdashes]
    exact hfollow

end

theorem hasPlainNames_loopHeap {w : Value} (hw : w = .ref 1 ∨ w = .ref 2) :
    loopHeap.HasPlainNames w where
  nodup cell hcell := by
    rcases hw with rfl | rfl <;> cases hcell <;> decide
  plain name member hmem := by
    obtain ⟨_, _, heq, hname, -⟩ := members_loopHeap hw hmem
    cases heq
    have hnames : ∀ name ∈ [Text.ofString "f", "r", "back"],
        Letter.char '-' ∉ name ∧ Letter.char '.' ∉ name := by decide
    exact hnames name hname

/-- In the namespace with a cycle the function in the record is found by its entry point. -/
theorem collectFrom_resolves_loopHeap :
    ∃ collection t point,
      (collectFrom [] (.ref 1)).on { Session.fresh default default with heap := loopHeap } =
        (.ok collection, t) ∧
      Assoc.get? collection.handlers (Text.ofString "r-f") = some (.ref 3) ∧
      (∃ e : Endpoint, Assoc.get? collection.endpoints (Text.ofString "r-f") = some (.ref 9) ∧
        t.heap.cell? (.ref 9) = some (.endpoint (e.withEntryPoint (.text point)))) ∧
      Text.split '.' point = ["r", "f"] ∧
      loopHeap.follow? default loopRoot (.ref 1) ["r", "f"] = some (.ref 3) := by
  let s : Session := { Session.fresh default default with heap := loopHeap }
  have hroot : s.heap.rootOf s.project (.ref 1) = .ok loopRoot := rfl
  have htyped : ∀ r, s.heap.IsVisited s.project [] (.ref 1) r → r.parts.IsTyped s.heap := by
    rintro r ⟨root, hroot', hpath, -⟩
    cases hroot'
    rw [(hasPath_loopHeap hpath).2]
    exact ⟨⟨default, rfl⟩, [], rfl⟩
  obtain ⟨collection, t, hrun, -, hkeys⟩ := collectFrom_resolves hroot
    (fun before w hw => hasPlainNames_loopHeap (visits_loopHeap hw)) htyped
  have hresult : ((collectFrom [] (.ref 1)).on s).1.toOption.map (fun c =>
      (Assoc.get? c.endpoints (Text.ofString "r-f"), Assoc.get? c.handlers (Text.ofString "r-f"))) =
        some (some (Value.ref 9), some (Value.ref 3)) := rfl
  rw [hrun] at hresult
  simp only [Except.toOption, Option.map_some, Option.some.injEq, Prod.mk.injEq] at hresult
  obtain ⟨hendpoint, hhandler⟩ := hresult
  obtain ⟨function, f, e, point, hfunction, -, -, hdeployed, hpoint, hfollow⟩ :=
    hkeys _ _ hendpoint
  cases hhandler.symm.trans hfunction
  exact ⟨collection, t, point, hrun, hhandler, ⟨e, hendpoint, hdeployed⟩, hpoint, hfollow⟩

end FunctionManifest
