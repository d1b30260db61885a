import FunctionManifest.Path.Segment
import FunctionManifest.Proofs.Text.Separated

/-!
# The parts of a path

Slashes around a path do not count. Joining the parts of a path gives a path with the same parts.
-/

namespace FunctionManifest

/-- A text that can stand between two slashes of a path. -/
def IsPart (part : Text) : Prop := part ≠ [] ∧ Letter.char '/' ∉ part

/-- What a path can be split into. Between its ends slashes can follow one another. -/
structure AreParts (parts : List Text) : Prop where
  plain : ∀ part ∈ parts, Letter.char '/' ∉ part
  first : parts.head? ≠ some []
  last : parts.getLast? ≠ some []

theorem areParts_of_isPart {parts : List Text} (h : ∀ part ∈ parts, IsPart part) :
    AreParts parts where
  plain part hpart := (h part hpart).2
  first hnil := (h [] (List.mem_of_head? hnil)).1 rfl
  last hnil := (h [] (List.mem_of_getLast? hnil)).1 rfl

/-- Parts that are empty where these are. -/
theorem AreParts.of_isEmpty {parts others : List Text} (h : AreParts parts)
    (hplain : ∀ part ∈ others, Letter.char '/' ∉ part)
    (hempty : others.map List.isEmpty = parts.map List.isEmpty) : AreParts others where
  plain := hplain
  first hnil := by
    have hfirst : (parts.map List.isEmpty).head? = some true := by
      rw [← hempty, List.head?_map, hnil]
      rfl
    rw [List.head?_map, Option.map_eq_some_iff] at hfirst
    obtain ⟨part, hpart, hpartNil⟩ := hfirst
    exact h.first (List.isEmpty_iff.mp hpartNil ▸ hpart)
  last hnil := by
    have hlast : (parts.map List.isEmpty).getLast? = some true := by
      rw [← hempty, List.getLast?_map, hnil]
      rfl
    rw [List.getLast?_map, Option.map_eq_some_iff] at hlast
    obtain ⟨part, hpart, hpartNil⟩ := hlast
    exact h.last (List.isEmpty_iff.mp hpartNil ▸ hpart)

theorem splitPath_surrounded {parts : List Text} (h : AreParts parts) (m n : Nat) :
    splitPath (List.replicate m (.char '/') ++ Text.join "/" parts ++
      List.replicate n (.char '/')) = parts := by
  by_cases hempty : parts = []
  · subst hempty
    rw [splitPath, Text.trim_surrounded (by simp) m n (by simp [Text.join]) (by simp [Text.join])]
    simp [Text.join]
  · have hsplit : Text.split '/' (Text.join "/" parts) = parts :=
      Text.split_join_of_not_mem hempty h.plain
    have hfirst : ∀ c ∈ (Text.join "/" parts).head?, decide (c = .char '/') = false := by
      refine fun c hc => decide_eq_false fun heq => h.first ?_
      rw [← hsplit]
      exact Text.head?_split (heq ▸ hc)
    have hlast : ∀ c ∈ (Text.join "/" parts).getLast?, decide (c = .char '/') = false := by
      refine fun c hc => decide_eq_false fun heq => h.last ?_
      rw [← hsplit]
      exact Text.getLast?_split (heq ▸ hc)
    have hne : Text.join "/" parts ≠ [] := by
      intro hnil
      rw [hnil] at hsplit
      exact h.first (hsplit ▸ rfl)
    rw [splitPath, Text.trim_surrounded (by simp) m n hfirst hlast, if_neg hne, hsplit]

theorem splitPath_join {parts : List Text} (h : AreParts parts) :
    splitPath (Text.join "/" parts) = parts := by
  simpa using splitPath_surrounded h 0 0

theorem areParts_splitPath (path : Text) : AreParts (splitPath path) := by
  rw [splitPath]
  split
  · exact ⟨nofun, nofun, nofun⟩
  · rename_i hne
    have hjoin := Text.join_split '/' (Text.trim (fun c => decide (c = .char '/')) path)
    refine ⟨fun part hpart => Text.not_mem_of_mem_split hpart, fun hnil => ?_, fun hnil => ?_⟩
    · -- An empty first part is the whole path, or the path begins with a slash.
      obtain ⟨rest, hrest⟩ := List.head?_eq_some_iff.mp hnil
      rw [hrest] at hjoin
      cases rest with
      | nil => exact hne hjoin.symm
      | cons next rest =>
        rw [Text.join, List.intercalate_cons_cons] at hjoin
        have hslash := Text.of_head?_trim (congrArg List.head? hjoin.symm)
        simp at hslash
    · obtain ⟨before, hbefore⟩ := List.getLast?_eq_some_iff.mp hnil
      rw [hbefore] at hjoin
      by_cases hnone : before = []
      · rw [hnone] at hjoin
        exact hne hjoin.symm
      · rw [Text.join_concat _ _ hnone, List.append_nil] at hjoin
        have hslash := Text.of_getLast?_trim
          ((congrArg List.getLast? hjoin.symm).trans List.getLast?_concat)
        simp at hslash

theorem splitPath_join_splitPath (path : Text) :
    splitPath (Text.join "/" (splitPath path)) = splitPath path :=
  splitPath_join (areParts_splitPath path)

end FunctionManifest
