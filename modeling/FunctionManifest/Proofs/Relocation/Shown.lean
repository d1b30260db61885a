import FunctionManifest.Proofs.Relocation.Heap

/-!
# Descriptions and searches

The text that describes a value has no address in it, and neither has the answer of a search.
-/

namespace FunctionManifest

variable {ρ : Relocation} {heap heap' : Heap}

/-! ## Descriptions -/

section

variable {show? show' : Value → Except Failure Text} (h : ∀ v, show' (moved ρ v) = show? v)

include h

theorem moved_shownEntries (entries : Entries) :
    shownEntries show' (moved ρ entries) = shownEntries show? entries := by
  induction entries with
  | nil => rfl
  | cons entry rest ih =>
    obtain ⟨key, v⟩ := entry
    simp only [moved_cons, moved_pair, shownEntries, h, ih]

theorem moved_shownParts (fields : Fields) :
    shownParts show' (moved ρ fields) = shownParts show? fields := by
  induction fields with
  | nil => rfl
  | cons field rest ih =>
    obtain ⟨name, v⟩ := field
    simp only [moved_cons, moved_pair, moved_plain, shownParts, h, ih]

theorem moved_shownAttribute (attributes : Fields) (name : Text) :
    (Assoc.get? (moved ρ attributes) name).mapM show' =
      (Assoc.get? attributes name).mapM show? := by
  rw [Assoc.moved_get?]
  cases Assoc.get? attributes name with
  | none => rfl
  | some v => simp only [moved_some, Option.mapM_some, h]

variable [Heap.Moved ρ heap heap']

theorem CloudFunction.moved_name (f : CloudFunction) :
    (moved ρ f).name heap' show' = moved ρ (f.name heap show?) := by
  unfold name
  rw [CloudFunction.relocatable_moved_invoke, h, Heap.moved_stored?]
  cases show? f.invoke with
  | error => rfl
  | ok shown => cases heap.stored? f.invoke "__name__" <;> rfl

theorem Heap.moved_memberName (v : Value) :
    heap'.memberName show' (moved ρ v) = moved ρ (heap.memberName show? v) := by
  unfold memberName
  rw [moved_cell?, moved_stored?, moved_missing]
  generalize heap.stored? v _ = found
  cases heap.cell? v with
  | none => cases found <;> rfl
  | some cell =>
    cases cell with
    | function f => exact f.moved_name h
    | _ => cases found <;> rfl

theorem moved_failureShown (kind : FailureKind) (arguments : Value) :
    failureShown heap' show' kind (moved ρ arguments) = failureShown heap show? kind arguments := by
  unfold failureShown
  rw [Heap.moved_content, h]
  cases heap.content arguments with
  | tuple items =>
    rcases items with _ | ⟨v, _ | ⟨w, rest⟩⟩
    · simp
    · simp [h]
    · simp
  | _ => simp

omit h [Heap.Moved ρ heap heap'] in
/-- An object with frozen parts is shown by them. -/
theorem Cell.shown_of_parts? {cell : Cell} {parts : List (String × Value)}
    (hparts : cell.parts? = some parts) :
    cell.shown heap show? = do
      return describe cell.type
        (← shownParts show? (parts.map fun part => (Text.ofString part.1, part.2))) := by
  cases cell with
  | formula f => cases f <;> cases hparts <;> rfl
  | _ => first | cases hparts; rfl | cases hparts

omit [Heap.Moved ρ heap heap'] in
theorem Cell.moved_shown_of_parts? {cell : Cell} {parts : List (String × Value)}
    (hparts : cell.parts? = some parts) :
    (moved ρ cell).shown heap' show' = cell.shown heap show? := by
  have hparts' : (moved ρ cell).parts? = some (moved ρ parts) := by
    rw [moved_parts?, hparts, moved_some]
  have hfields : ((moved ρ parts).map fun part => (Text.ofString part.1, part.2)) =
      moved ρ (parts.map fun part => (Text.ofString part.1, part.2)) := by
    simp [moved_list]
  rw [shown_of_parts? hparts, shown_of_parts? hparts', moved_type, hfields, moved_shownParts h]

theorem Cell.moved_shown (cell : Cell) :
    (moved ρ cell).shown heap' show' = cell.shown heap show? := by
  cases cell with
  | list items => simp only [moved_cell_list, shown, mapM_moved items h]
  | tuple items => simp only [moved_cell_tuple, shown, mapM_moved items h]
  | mapping entries => simp only [moved_cell_mapping, shown, moved_shownEntries h]
  | record fields =>
    have hnamed : (moved ρ fields).filter (fun field => field.1 ≠ []) =
        moved ρ (fields.filter fun field => field.1 ≠ []) :=
      moved_filter fields fun field => rfl
    simp only [moved_cell_record, shown, hnamed, moved_shownParts h]
  | module attributes => simp only [moved_cell_module, shown, moved_shownAttribute h]
  | param p =>
    simp only [moved_cell_param, shown, Param.relocatable_moved_kind, Param.relocatable_moved_name,
      h]
  | secret s => simp only [moved_cell_secret, shown, Secret.relocatable_moved_name, h]; rfl
  | failure kind arguments => exact moved_failureShown h kind arguments
  | registry r =>
    simp only [moved_cell_registry, shown, Registry.relocatable_moved_entries]
    rw [moved_mapM r.entries fun v => Heap.moved_memberName h v]
    cases r.entries.mapM (heap.memberName show?) with
    | error => rfl
    | ok names =>
      change (do return describe "ParamRegistry" [← show' (.list (moved ρ names))]) =
        do return describe "ParamRegistry" [← show? (.list names)]
      rw [← moved_valueList, h]
  | formula f =>
    cases f with
    | base => rfl
    | _ => exact moved_shown_of_parts? h rfl
  | segment | api | endpoint | function | stack | config | choice | prompt =>
    exact moved_shown_of_parts? h rfl
  | _ => rfl

end

namespace Heap

variable [Heap.Moved ρ heap heap']

theorem moved_shownFrom (fuel : Nat) (way : List Nat) (v : Value) :
    heap'.shownFrom fuel (way.map ρ.address) (moved ρ v) = heap.shownFrom fuel way v := by
  induction fuel generalizing way v with
  | zero => rfl
  | succ fuel ih =>
    have hcell : ∀ (way : List Nat) (cell : Cell),
        (moved ρ cell).shown heap' (heap'.shownFrom fuel (way.map ρ.address)) =
          cell.shown heap (heap.shownFrom fuel way) := fun way => Cell.moved_shown (ih way)
    cases v with
    | list items =>
      simpa only [moved_valueList, moved_cell_list, shownFrom] using hcell way (.list items)
    | tuple items =>
      simpa only [moved_valueTuple, moved_cell_tuple, shownFrom] using hcell way (.tuple items)
    | mapping entries =>
      simpa only [moved_valueMapping, moved_cell_mapping, shownFrom] using hcell way
        (.mapping entries)
    | ref a =>
      simp only [moved_ref, shownFrom, Moved.cells a]
      cases heap.cells[a]? with
      | none => rfl
      | some cell =>
        simp only [moved_some, Cell.moved_mark?]
        cases cell.mark? with
        | none => exact hcell way cell
        | some mark =>
          simp only [mem_moved_way]
          split
          · rfl
          · exact hcell (a :: way) cell
    | _ => simp [shownFrom]

@[simp] theorem moved_shown (v : Value) :
    heap'.shown (moved ρ v) = heap.shown v := moved_shownFrom depth [] v

/-! ## Searching -/

@[simp] theorem moved_nameOf (v : Value) : heap'.nameOf (moved ρ v) = moved ρ (heap.nameOf v) :=
  moved_memberName moved_shown v

@[simp] theorem moved_declaredName? (v : Value) :
    heap'.declaredName? (moved ρ v) = heap.declaredName? v := by
  unfold declaredName?
  rw [moved_cell?]
  cases heap.cell? v <;> simp

@[simp] theorem moved_sameName (v w : Value) :
    heap'.sameName (moved ρ v) (moved ρ w) = heap.sameName v w := by
  unfold sameName
  rw [moved_nameOf, moved_nameOf]
  cases heap.nameOf v with
  | error => rfl
  | ok name =>
    cases heap.nameOf w with
    | error => rfl
    | ok other => exact moved_same name other

@[simp] theorem moved_hasName (name v : Value) :
    heap'.hasName (moved ρ name) (moved ρ v) = heap.hasName name v := by
  unfold hasName
  rw [moved_nameOf]
  cases heap.nameOf v with
  | error => rfl
  | ok own => exact moved_same own name

@[simp] theorem moved_hasItem (item : Value) (items : List Value) :
    heap'.hasItem (moved ρ item) (moved ρ items) = heap.hasItem item items := by
  induction items with
  | nil => rfl
  | cons v rest ih => simp only [moved_cons, hasItem, moved_sameInside, ih]

@[simp] theorem moved_contains (collection item : Value) :
    heap'.contains (moved ρ collection) (moved ρ item) = heap.contains collection item := by
  have htype : heap'.type (moved ρ (heap.content collection)) =
      heap.type (heap.content collection) := moved_type _
  unfold contains
  rw [moved_content, moved_cell?]
  generalize heap.content collection = content at htype ⊢
  cases content with
  | list items => simp
  | tuple items => simp
  | mapping entries =>
    simp only [moved_valueMapping, moved_lookEntry]
    cases heap.lookEntry entries item with
    | error => rfl
    | ok found => cases found <;> rfl
  | text t =>
    have hitem : heap'.type (moved ρ item) = heap.type item := moved_type item
    cases item <;> simp_all
  | _ =>
    cases heap.cell? collection with
    | none => simp_all
    | some cell =>
      cases cell with
      | registry r => exact moved_anyM r.entries fun v => moved_hasName item v
      | _ => simp_all

theorem moved_part (v : Value) (name : String) :
    heap'.part (moved ρ v) name = moved ρ (heap.part v name) := by
  unfold part
  rw [moved_stored?, moved_missing]
  cases heap.stored? v name <;> rfl

theorem moved_member (entries : Entries) (key : String) :
    heap'.member (moved ρ entries) key = moved ρ (heap.member entries key) := by
  unfold member
  rw [moved_lookEntry_text]
  refine moved_bind _ fun found => ?_
  cases found <;> rfl

theorem moved_requirement (v : Value) :
    heap'.requirement (moved ρ v) = moved ρ (heap.requirement v) := by
  unfold requirement
  rw [moved_entries?, moved_part, moved_part]
  cases heap.entries? v with
  | some entries =>
    simp only [moved_some, moved_member]
    refine moved_bind _ fun api => moved_bind _ fun reason => ?_
    simp only [moved_checkKey]
    cases heap.checkKey api with
    | error => rfl
    | ok => cases heap.checkKey reason <;> rfl
  | none =>
    refine moved_bind _ fun api => ?_
    simp only [moved_checkKey]
    cases heap.checkKey api with
    | error => rfl
    | ok =>
      refine moved_bind _ fun reason => ?_
      simp only [moved_checkKey]
      cases heap.checkKey reason <;> rfl

end Heap

end FunctionManifest
