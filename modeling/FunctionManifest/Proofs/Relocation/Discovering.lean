import FunctionManifest.Proofs.Discovery.Walk
import FunctionManifest.Proofs.Relocation.Importing
import FunctionManifest.Loading.Load

/-!
# Discovery

The walk over the members of a module enters each object once, which it knows by its address. It
finds the same in the same order.
-/

namespace FunctionManifest

open Eval

variable {ρ : Relocation} {declaring : Prop}

/-! ## Members -/

instance : Relocatable Member where
  moved ρ
    | .found name v => .found name (moved ρ v)
    | .absent failure => .absent failure

@[simp] theorem moved_found (name : Text) (v : Value) :
    moved ρ (Member.found name v) = .found name (moved ρ v) := rfl

@[simp] theorem moved_absent (failure : Failure) :
    moved ρ (Member.absent failure) = .absent failure := rfl

theorem moved_publicMembers (fields : Fields) :
    publicMembers (moved ρ fields) = moved ρ (publicMembers fields) := by
  unfold publicMembers
  rw [moved_filter fields fun field => rfl]
  exact moved_map _ fun field => rfl

theorem moved_namedEntries (entries : Entries) :
    namedEntries (moved ρ entries) = moved ρ (namedEntries entries) := by
  unfold namedEntries
  induction entries with
  | nil => rfl
  | cons entry rest ih =>
    obtain ⟨key, v⟩ := entry
    rw [moved_cons, moved_pair, List.filterMap_cons, List.filterMap_cons, ih]
    cases key <;> simp

instance Root.relocatable : Relocatable Root where
  moved ρ root := ⟨moved ρ root.name, root.directory⟩

section

variable {heap heap' : Heap} [Heap.Moved ρ heap heap']

namespace Heap

theorem moved_listedMember (module name : Value) :
    heap'.listedMember (moved ρ module) (moved ρ name) =
      moved ρ (heap.listedMember module name) := by
  have htype : heap'.type (moved ρ name) = heap.type name := moved_type name
  cases name with
  | text name =>
    simp only [moved_text, listedMember, moved_stored?, moved_missing]
    cases heap.stored? module name with
    | some found => rfl
    | none =>
      simp only [moved_none]
      split <;> rfl
  | _ => exact congrArg (fun type => Member.absent (.notAttributeName type)) htype

theorem moved_moduleMembers (module : Value) (attributes : Fields) :
    heap'.moduleMembers (moved ρ module) (moved ρ attributes) =
      moved ρ (heap.moduleMembers module attributes) := by
  unfold moduleMembers
  rw [Assoc.moved_get?, moved_option_bind _ fun v => v.moved_given?]
  cases (Assoc.get? attributes _).bind Value.given? with
  | none => exact moved_publicMembers attributes
  | some listed =>
    simp only [moved_some, moved_items]
    cases heap.items listed with
    | error => rfl
    | ok names => exact moved_map names fun name => moved_listedMember module name

theorem moved_members (v : Value) : heap'.members (moved ρ v) = moved ρ (heap.members v) := by
  unfold members
  rw [moved_cell?]
  cases heap.cell? v with
  | none => rfl
  | some cell =>
    cases cell with
    | module attributes => exact moved_moduleMembers v attributes
    | record fields => exact moved_publicMembers fields
    | mapping entries => exact moved_namedEntries entries
    | _ => rfl

end Heap

theorem moved_fileOf? (v : Value) : fileOf? heap' (moved ρ v) = fileOf? heap v := by
  have hother (w : Value) :
      (if heap'.isTruthy (moved ρ w) then .error (.notFileName (shortType (heap'.type (moved ρ w))))
      else .ok none :
      Except Failure (Option Text)) =
        if heap.isTruthy w then .error (.notFileName (shortType (heap.type w))) else .ok none := by
    rw [Heap.moved_type, Heap.moved_isTruthy]
  unfold fileOf?
  rw [Heap.moved_stored?]
  cases heap.stored? v "__file__" with
  | none => rfl
  | some w =>
    have hw := hother w
    cases w with
    | text => rfl
    | _ => exact hw

theorem moved_comesFrom (project : Project) (directory : Location) (v : Value) :
    comesFrom heap' project directory (moved ρ v) = comesFrom heap project directory v := by
  unfold comesFrom
  rw [moved_fileOf?]

namespace Heap

theorem moved_moduleName (module : Value) :
    heap'.moduleName (moved ρ module) = moved ρ (heap.moduleName module) := by
  unfold moduleName
  rw [moved_stored?, moved_missing]
  cases heap.stored? module "__name__" <;> rfl

theorem moved_rootName (v : Value) : heap'.rootName (moved ρ v) = moved ρ (heap.rootName v) := by
  unfold rootName
  rw [moved_cell?, moved_moduleName]
  cases heap.cell? v with
  | none => rfl
  | some cell => cases cell <;> rfl

theorem moved_directoryOf? (project : Project) (v : Value) :
    heap'.directoryOf? project (moved ρ v) = heap.directoryOf? project v := by
  unfold directoryOf?
  rw [moved_fileOf?]

theorem moved_rootOf (project : Project) (v : Value) :
    heap'.rootOf project (moved ρ v) = moved ρ (heap.rootOf project v) := by
  unfold rootOf
  rw [moved_rootName, moved_directoryOf?]
  refine moved_bind _ fun name => ?_
  cases heap.directoryOf? project v <;> rfl

theorem moved_dotted (v : Value) : heap'.dotted (moved ρ v) = heap.dotted v := by
  cases v with
  | text => rfl
  | _ =>
    rw [dotted, dotted, moved_content, moved_type]
    · generalize heap.content _ = content
      cases content <;> rfl
    all_goals
      intro _ h
      cases h

theorem moved_isBelow (root : Root) (name : Value) :
    heap'.isBelow (moved ρ root) (moved ρ name) = heap.isBelow root name := by
  have hother : (Except.error (heap'.missing (moved ρ name) "startswith") : Except Failure Bool) =
      .error (heap.missing name "startswith") := by
    rw [moved_missing]
  cases name with
  | text name =>
    change (do return (← heap'.dotted (moved ρ root.name)).isPrefixOf name) = do
      return (← heap.dotted root.name).isPrefixOf name
    rw [moved_dotted]
  | _ => exact hother

theorem moved_owns (project : Project) (root : Root) (module : Value) :
    heap'.owns project (moved ρ root) (moved ρ module) = heap.owns project root module := by
  unfold owns
  rw [moved_moduleName]
  cases heap.moduleName module with
  | error => rfl
  | ok name =>
    rw [moved_ok]
    simp only [bind, Except.bind, moved_isBelow, moved_comesFrom]
    rfl

theorem moved_group? (project : Project) (root : Root) (v : Value) :
    heap'.group? project (moved ρ root) (moved ρ v) = moved ρ (heap.group? project root v) := by
  have howns : heap'.owns project (moved ρ root) (moved ρ v) = heap.owns project root v :=
    moved_owns project root v
  have hcell : heap'.cell? (moved ρ v) = moved ρ (heap.cell? v) := moved_cell? v
  unfold group?
  cases v with
  | ref a =>
    rw [hcell]
    cases heap.cell? (.ref a) with
    | none => rfl
    | some cell =>
      cases cell with
      | module attributes =>
        change (do
          let owned ← heap'.owns project (moved ρ root) (moved ρ (.ref a))
          return if owned then some (ρ.address a) else none) = _
        rw [howns]
        cases heap.owns project root (.ref a) with
        | error => rfl
        | ok owned => cases owned <;> rfl
      | _ => rfl
  | _ => rfl

end Heap

end

/-! ## Walks -/

instance Found.relocatable : Relocatable Found where
  moved ρ found := ⟨found.key, moved ρ found.function, moved ρ found.parts⟩

instance Walk.relocatable : Relocatable Walk where
  moved ρ walk := ⟨moved ρ walk.found, walk.stop⟩

namespace Walk

theorem moved_andThen (walk : Walk) {next next' : Unit → Walk} (h : next' () = moved ρ (next ())) :
    (moved ρ walk).andThen next' = moved ρ (walk.andThen next) := by
  obtain ⟨found, stop⟩ := walk
  cases stop with
  | some => rfl
  | none =>
    change Walk.mk (moved ρ found ++ (next' ()).found) (next' ()).stop =
        ⟨moved ρ (found ++ (next ()).found), (next ()).stop⟩
    rw [h, moved_append]
    rfl

theorem moved_visitAll {visit visit' : Text → Value → Walk}
    (h : ∀ name v, visit' name (moved ρ v) = moved ρ (visit name v))
    (members : List Member) :
    visitAll visit' (moved ρ members) = moved ρ (visitAll visit members) := by
  induction members with
  | nil => rfl
  | cons member rest ih =>
    cases member with
    | absent => rfl
    | found name v =>
      simp only [moved_cons, moved_found, visitAll, h]
      exact moved_andThen _ ih

end Walk

instance Way.relocatable : Relocatable Way where
  moved ρ way := ⟨way.groups, way.ancestors.map ρ.address⟩

section

variable {heap heap' : Heap} [Heap.Moved ρ heap heap']

omit [Heap.Moved ρ heap heap'] in
theorem moved_findFunction (way : Way) (name : Text) (function : Value) (parts : CloudFunction) :
    findFunction (moved ρ way) name (moved ρ function) (moved ρ parts) =
      moved ρ (findFunction way name function parts) := by
  unfold findFunction
  split <;> rfl

/-- A group is entered unless it is on the way. -/
theorem moved_visitGroup (group? : Except Failure (Option Nat)) (way : Way)
    {visit visit' : Nat → Walk} (hvisit : ∀ a, visit' (ρ.address a) = moved ρ (visit a)) :
    (match moved ρ group? with
      | .error failure => Walk.stopped failure
      | .ok none => .nothing
      | .ok (some a) => if a ∈ (moved ρ way).ancestors then .nothing else visit' a) =
    moved ρ (match group? with
      | .error failure => Walk.stopped failure
      | .ok none => .nothing
      | .ok (some a) => if a ∈ way.ancestors then .nothing else visit a) := by
  cases group? with
  | error => rfl
  | ok group? =>
    cases group? with
    | none => rfl
    | some a =>
      change (if ρ.address a ∈ way.ancestors.map ρ.address then Walk.nothing
        else visit' (ρ.address a)) = _
      simp only [Heap.mem_moved_way, hvisit]
      split <;> rfl

namespace Heap

theorem moved_walk (project : Project) (root : Root) (fuel : Nat) (way : Way) (v : Value) :
    heap'.walk project (moved ρ root) fuel (moved ρ way) (moved ρ v) =
      moved ρ (heap.walk project root fuel way v) := by
  induction fuel generalizing way v with
  | zero => rfl
  | succ fuel ih =>
    unfold walk
    rw [moved_members]
    refine Walk.moved_visitAll (fun name member => ?_) _
    rw [moved_cell?, moved_group?]
    cases heap.cell? member with
    | none => exact moved_visitGroup _ way fun a => ih (way.enter name a) member
    | some cell =>
      cases cell with
      | function f => exact moved_findFunction way name member f
      | _ => exact moved_visitGroup _ way fun a => ih (way.enter name a) member

theorem moved_discover (project : Project) (groups : Text) (v : Value) :
    heap'.discover project groups (moved ρ v) = moved ρ (heap.discover project groups v) := by
  unfold discover
  rw [moved_rootOf]
  cases heap.rootOf project v with
  | error => rfl
  | ok root =>
    have hstart : Way.start groups (moved ρ v) = moved ρ (Way.start groups v) := by
      cases v <;> simp [Way.start] <;> rfl
    have hfuel : ∀ (heap : Heap) (root : Root) (way : Way) (v : Value) (extra : Nat),
        heap.walk project root (heap.cells.size + 1) way v =
          heap.walk project root (heap.cells.size + 1 + extra) way v :=
      fun heap root way v extra => by
        have hle := heap.unvisited_le_size way.ancestors
        exact walk_fuel (by omega) (by omega)
    change heap'.walk project (moved ρ root) (heap'.cells.size + 1) (Way.start groups (moved ρ v))
        (moved ρ v) =
      moved ρ (heap.walk project root (heap.cells.size + 1) (Way.start groups v) v)
    have hsize : heap'.cells.size + 1 + heap.cells.size =
        heap.cells.size + 1 + heap'.cells.size := by
      omega
    rw [hstart, hfuel heap' _ _ _ heap.cells.size, hfuel heap _ _ _ heap'.cells.size, hsize]
    exact moved_walk project root _ _ v

end Heap

end

/-! ## Collecting -/

instance Collection.relocatable : Relocatable Collection where
  moved ρ collection :=
    { endpoints := moved ρ collection.endpoints
      requiredApis := moved ρ collection.requiredApis
      handlers := moved ρ collection.handlers
      stop := collection.stop }

theorem moved_collection (endpoints : Fields) (apis : List Value) (handlers : Fields)
    (stop : Option Failure) :
    moved ρ (Collection.mk endpoints apis handlers stop) =
      ⟨moved ρ endpoints, moved ρ apis, moved ρ handlers, stop⟩ := rfl

/-- The second collector collects what the first one does. -/
structure Collector.Mirrors (ρ : Relocation) (declaring : Prop)
    (collector collector' : Collector Eval) : Prop where
  deployed : ∀ endpoint entryPoint,
    Eval.Mirrors ρ declaring (collector.deployed endpoint entryPoint)
    (collector'.deployed (moved ρ endpoint) entryPoint)
  requiredApis : ∀ apis,
    Eval.Mirrors ρ declaring (collector.requiredApis apis) (collector'.requiredApis (moved ρ apis))
  note : ∀ key, Eval.Mirrors ρ declaring (collector.note key) (collector'.note key)

section

variable {collector collector' : Collector Eval} (h : collector.Mirrors ρ declaring collector')

include h

theorem mirrors_add (before : Collection) (found : Found) :
    Mirrors ρ declaring (Collection.add collector before found)
      (Collection.add collector' (moved ρ before) (moved ρ found)) := by
  refine mirrors_bind (h.deployed found.parts.endpoint _) fun deployed => ?_
  cases deployed with
  | error failure => exact mirrors_pure rfl
  | ok endpoint =>
    refine mirrors_bind (h.requiredApis found.parts.requiredApis) fun apis => ?_
    have hendpoints := Assoc.moved_set (ρ := ρ) before.endpoints found.key endpoint
    have hhandlers := Assoc.moved_set (ρ := ρ) before.handlers found.key found.function
    cases apis with
    | error failure => exact mirrors_pure (congrArg (Collection.mk · _ _ _) hendpoints)
    | ok apis =>
      refine mirrors_bind (h.note found.key) fun _ => mirrors_pure ?_
      have hcollected := moved_collection (ρ := ρ) (Assoc.set before.endpoints found.key endpoint)
        (before.requiredApis ++ apis) (Assoc.set before.handlers found.key found.function)
          before.stop
      rw [moved_append, ← hendpoints, ← hhandlers] at hcollected
      exact hcollected.symm

theorem mirrors_addAll (before : Collection) (found : List Found) :
    Mirrors ρ declaring (Collection.addAll collector before found)
      (Collection.addAll collector' (moved ρ before) (moved ρ found)) := by
  induction found generalizing before with
  | nil => exact mirrors_pure rfl
  | cons found rest ih =>
    refine mirrors_bind (mirrors_add h before found) fun collection => ?_
    obtain ⟨endpoints, apis, handlers, stop⟩ := collection
    cases stop with
    | some failure => exact mirrors_pure rfl
    | none => exact ih _

theorem mirrors_collect (walk : Walk) :
    Mirrors ρ declaring (walk.collect collector) ((moved ρ walk).collect collector') :=
  mirrors_map (mirrors_addAll h .empty walk.found) fun _ => rfl

end

end FunctionManifest
