import FunctionManifest.Proofs.Steps
import FunctionManifest.Trigger.Options
import Mathlib.Data.List.Nodup

/-!
# Options that are built

What is built of options is one field for each that is given, under the key of the option and in the
order in which they are given. The keys are all different, so no field takes the place of another.
-/

namespace FunctionManifest

namespace EndpointOption

variable {o : EndpointOption} {heap : Heap} {v w : Value}

theorem mem_all (o : EndpointOption) : o ∈ all := by
  cases o <;> decide

theorem manifestKey_injective {a b : EndpointOption}
    (h : Text.ofString a.manifestKey = b.manifestKey) : a = b := by
  have hkeys : (all.map fun o => Text.ofString o.manifestKey).Nodup := by decide
  exact List.inj_on_of_nodup_map hkeys a.mem_all b.mem_all h

@[simp] theorem ofKeyword?_keyword (o : EndpointOption) :
    ofKeyword? (.text o.keyword) = some o := by
  cases o <;> decide

theorem ofKeyword?_eq_some_iff {keyword : Text} :
    ofKeyword? (.text keyword) = some o ↔ keyword = o.keyword := by
  constructor
  · intro h
    simpa using List.find?_some h
  · rintro rfl
    exact ofKeyword?_keyword o

/-- What is no text, and no secrets either, is kept. -/
theorem normalize_of_other (hother : o ≠ .secrets) (hv : ∀ t, v ≠ .text t) :
    o.normalize heap v = .ok v := by
  unfold normalize
  split
  · exact absurd rfl (hv _)
  · exact absurd rfl hother
  · rfl

end EndpointOption

/-- The option, if the keyword is one and its value says something. -/
def givenOption? (keyword : Text × Value) : Option (EndpointOption × Value) := do
  return (← EndpointOption.ofKeyword? (.text keyword.1), ← keyword.2.given?)

/-- The options among the keywords that are given, in their order. -/
def givenOptions (keywords : Fields) : List (EndpointOption × Value) :=
  keywords.filterMap givenOption?

/-- The field that is built of an option. -/
structure Heap.Builds (heap : Heap) (option : EndpointOption × Value) (field : Text × Value) :
    Prop where
  key : field.1 = option.1.manifestKey
  value : option.1.normalize heap option.2 = .ok field.2

variable {heap : Heap} {keywords fields : Fields}

theorem givenOption?_eq_some_iff {keyword : Text × Value} {o : EndpointOption} {v : Value} :
    givenOption? keyword = some (o, v) ↔ keyword = (Text.ofString o.keyword, v) ∧ v ≠ .null := by
  obtain ⟨name, w⟩ := keyword
  cases w <;> simp [givenOption?, Value.given?, Option.bind_eq_some_iff,
    EndpointOption.ofKeyword?_eq_some_iff] <;> grind

/-- Keywords that are no options can be left out. -/
theorem givenOptions_filter {p : Text × Value → Bool}
    (h : ∀ keyword ∈ keywords, ∀ o : EndpointOption, keyword.1 = o.keyword → p keyword = true) :
    givenOptions (keywords.filter p) = givenOptions keywords := by
  rw [givenOptions, List.filterMap_filter]
  refine List.filterMap_congr fun keyword hkeyword => ?_
  cases hgiven : givenOption? keyword with
  | none => split <;> rfl
  | some option =>
    obtain ⟨rfl, -⟩ := givenOption?_eq_some_iff.mp hgiven
    rw [if_pos (h _ hkeyword option.1 rfl)]

/-! ## Fields -/

/-- A keyword that builds something is an option, or its value says nothing. -/
theorem forall₂_of_buildOption {keyword : Text} {v : Value}
    (h : buildOption heap (.text keyword) v = .ok fields) :
    List.Forall₂ heap.Builds (givenOption? (keyword, v)).toList fields := by
  cases ho : EndpointOption.ofKeyword? (.text keyword) with
  | none =>
    cases v with
    | null =>
      cases h
      simp [givenOption?, ho]
    | _ =>
      simp only [buildOption, ho] at h
      obtain ⟨_, -, h⟩ := bind_eq_ok_iff.mp h
      cases h
  | some o =>
    cases v with
    | null =>
      cases h
      simp [givenOption?, Value.given?]
    | _ =>
      simp only [buildOption, ho] at h
      obtain ⟨w, hw, h⟩ := bind_eq_ok_iff.mp h
      cases h
      simpa [givenOption?, ho, Value.given?, field] using ⟨rfl, hw⟩

theorem forall₂_of_buildOptions
    (h : buildOptions heap (keywords.map fun keyword => (.text keyword.1, keyword.2)) = .ok fields) :
    List.Forall₂ heap.Builds (givenOptions keywords) fields := by
  induction keywords generalizing fields with
  | nil =>
    cases h
    exact .nil
  | cons keyword rest ih =>
    rw [List.map_cons, buildOptions] at h
    obtain ⟨first, hfirst, h⟩ := bind_eq_ok_iff.mp h
    obtain ⟨others, hothers, h⟩ := bind_eq_ok_iff.mp h
    cases h
    have hgiven : givenOptions (keyword :: rest) =
        (givenOption? keyword).toList ++ givenOptions rest := by
      cases hkeyword : givenOption? keyword <;> simp [givenOptions, hkeyword]
    rw [hgiven]
    exact List.rel_append (forall₂_of_buildOption hfirst) (ih hothers)

theorem keys_of_builds {options : List (EndpointOption × Value)}
    (h : List.Forall₂ heap.Builds options fields) :
    fields.map Prod.fst = options.map fun option => Text.ofString option.1.manifestKey := by
  induction h with
  | nil => rfl
  | cons hfirst _ ih => rw [List.map_cons, List.map_cons, hfirst.key, ih]

/-- Options that are given under different keywords have different keys. -/
theorem nodup_manifestKeys (hkeywords : (keywords.map Prod.fst).Nodup) :
    ((givenOptions keywords).map fun option => Text.ofString option.1.manifestKey).Nodup := by
  induction keywords with
  | nil => exact List.nodup_nil
  | cons keyword rest ih =>
    rw [List.map_cons, List.nodup_cons] at hkeywords
    rw [givenOptions, List.filterMap_cons]
    split
    · exact ih hkeywords.2
    · rename_i option hoption
      obtain ⟨rfl, -⟩ := givenOption?_eq_some_iff.mp hoption
      rw [List.map_cons, List.nodup_cons]
      refine ⟨fun hmem => ?_, ih hkeywords.2⟩
      obtain ⟨other, hother, hkey⟩ := List.mem_map.mp hmem
      obtain ⟨entry, hentry, hgiven⟩ := List.mem_filterMap.mp hother
      obtain ⟨rfl, -⟩ := givenOption?_eq_some_iff.mp hgiven
      rw [EndpointOption.manifestKey_injective hkey] at hentry
      exact hkeywords.1 (List.mem_map.mpr ⟨_, hentry, rfl⟩)

end FunctionManifest
