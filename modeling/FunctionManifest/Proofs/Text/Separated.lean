import FunctionManifest.Text.Separated
import Mathlib.Data.List.Basic

/-!
# Splitting and joining

Splitting at a separator undoes joining with it as far as the parts have no separator themselves. A
part that has some comes back in pieces.
-/

namespace FunctionManifest.Text

theorem split_eq_splitOn (separator : Letter) (text : Text) :
    split separator text = text.splitOn separator := by
  induction text with
  | nil => rfl
  | cons c rest ih =>
    have hne := List.splitOn_ne_nil separator rest
    rw [split, List.splitOn_cons_eq_if_modifyHead, ih]
    by_cases h : c = separator
    · simp [h]
    · rw [if_neg h, if_neg (by simpa using h)]
      cases hsplit : rest.splitOn separator with
      | nil => exact absurd hsplit hne
      | cons part parts => rfl

theorem join_split (separator : Letter) (text : Text) :
    join [separator] (split separator text) = text := by
  rw [split_eq_splitOn]
  exact List.intercalate_splitOn separator

theorem join_concat (separator part : Text) {parts : List Text} (h : parts ≠ []) :
    join separator (parts ++ [part]) = join separator parts ++ separator ++ part := by
  induction parts with
  | nil => exact absurd rfl h
  | cons first rest ih =>
    cases rest with
    | nil => simp [join]
    | cons next rest =>
      have hrest := ih (by simp)
      simp only [join, List.cons_append, List.intercalate_cons_cons, List.append_assoc] at hrest ⊢
      rw [hrest]

/-- Every part comes back in its own pieces. -/
theorem split_join (separator : Letter) {parts : List Text} (h : parts ≠ []) :
    split separator (join [separator] parts) = parts.flatMap (split separator) := by
  induction parts with
  | nil => exact absurd rfl h
  | cons part rest ih =>
    cases rest with
    | nil => simp [join]
    | cons next rest =>
      rw [List.flatMap_cons, ← ih (by simp), join, List.intercalate_cons_cons,
        List.append_assoc, List.singleton_append]
      simp only [split_eq_splitOn]
      exact List.splitOn_append_cons_self _ _

theorem split_of_not_mem {separator : Letter} {text : Text} (h : separator ∉ text) :
    split separator text = [text] := by
  rw [split_eq_splitOn]
  exact List.splitOn_eq_singleton h

theorem flatMap_split_of_not_mem {separator : Letter} {parts : List Text}
    (h : ∀ part ∈ parts, separator ∉ part) : parts.flatMap (split separator) = parts := by
  have hpieces : parts.flatMap (split separator) = parts.flatMap fun part => [part] :=
    List.flatMap_congr fun part hpart => split_of_not_mem (h part hpart)
  exact hpieces.trans (List.flatMap_singleton' parts)

/-- Joined parts come back when they are split. -/
theorem split_join_of_not_mem {separator : Letter} {parts : List Text} (hne : parts ≠ [])
    (h : ∀ part ∈ parts, separator ∉ part) : split separator (join [separator] parts) = parts :=
  (split_join separator hne).trans (flatMap_split_of_not_mem h)

theorem not_mem_of_mem_split {separator : Letter} {text part : Text}
    (h : part ∈ split separator text) : separator ∉ part := by
  induction text generalizing part with
  | nil =>
    rw [List.mem_singleton.mp h]
    exact List.not_mem_nil
  | cons c rest ih =>
    rw [split] at h
    split at h
    · rcases List.mem_cons.mp h with rfl | h
      · exact List.not_mem_nil
      · exact ih h
    · rename_i hne
      have hc : separator ∉ [c] := fun hin => hne (List.mem_singleton.mp hin).symm
      split at h
      · rwa [List.mem_singleton.mp h]
      · rename_i first parts hsplit
        rcases List.mem_cons.mp h with rfl | h
        · have hfirst := ih (hsplit ▸ List.mem_cons_self)
          exact fun hin => (List.mem_cons.mp hin).elim (fun heq => hne heq.symm) hfirst
        · exact ih (hsplit ▸ List.mem_cons_of_mem _ h)

/-- A text that begins with the separator has an empty first part. -/
theorem head?_split {separator : Letter} {text : Text} (h : text.head? = some separator) :
    (split separator text).head? = some [] := by
  obtain ⟨rest, rfl⟩ := List.head?_eq_some_iff.mp h
  simp [split]

/-- A text that ends with the separator has an empty last part. -/
theorem getLast?_split {separator : Letter} {text : Text} (h : text.getLast? = some separator) :
    (split separator text).getLast? = some [] := by
  obtain ⟨before, rfl⟩ := List.getLast?_eq_some_iff.mp h
  rw [split_eq_splitOn, List.splitOn_append_cons_self]
  simp

/-- Parts are joined to one text if they have the same pieces, and not otherwise. -/
theorem join_eq_join_iff (separator : Letter) {parts parts' : List Text} (h : parts ≠ [])
    (h' : parts' ≠ []) :
    join [separator] parts = join [separator] parts' ↔
      parts.flatMap (split separator) = parts'.flatMap (split separator) := by
  constructor
  · intro heq
    rw [← split_join separator h, ← split_join separator h', heq]
  · intro heq
    rw [← join_split separator (join [separator] parts),
      ← join_split separator (join [separator] parts'), split_join separator h,
      split_join separator h', heq]

theorem replace_eq_self {old new : Letter} {text : Text} (h : old ∉ text) :
    replace old new text = text := by
  refine (List.map_congr_left fun c hc => if_neg ?_).trans (List.map_id text)
  rintro rfl
  exact h hc

/-- Parts that were joined with one separator are joined with the other one. -/
theorem replace_join {old new : Letter} {parts : List Text} (h : ∀ part ∈ parts, old ∉ part) :
    replace old new (join [old] parts) = join [new] parts := by
  induction parts with
  | nil => rfl
  | cons part rest ih =>
    have hpart : replace old new part = part := replace_eq_self (h part List.mem_cons_self)
    have hrest := ih fun part hpart => h part (List.mem_cons_of_mem _ hpart)
    cases rest with
    | nil => simpa [join] using hpart
    | cons next rest =>
      simp only [join, replace, List.intercalate_cons_cons, List.map_append] at hpart hrest ⊢
      rw [hpart, hrest]
      simp

/-- Each part stands in the text that they are joined to. -/
theorem infix_join {separator part : Text} {parts : List Text} (h : part ∈ parts) :
    part <:+: join separator parts := by
  induction parts with
  | nil => cases h
  | cons first rest ih =>
    cases rest with
    | nil =>
      rw [List.mem_singleton.mp h]
      simp [join]
    | cons next rest =>
      rw [join, List.intercalate_cons_cons]
      rcases List.mem_cons.mp h with rfl | h
      · exact (List.infix_append' [] part separator).trans (List.prefix_append _ _).isInfix
      · exact (ih h).trans (List.suffix_append _ _).isInfix

/-! ## Trimming -/

variable {drops : Letter → Bool}

theorem dropWhile_eq_self {text : Text} (h : ∀ c ∈ text.head?, drops c = false) :
    text.dropWhile drops = text := by
  cases text with
  | nil => rfl
  | cons c rest => simp [h c rfl]

/-- Letters around a text that does not begin or end with one of them are dropped. -/
theorem trim_surrounded {c : Letter} (hc : drops c = true) (m n : Nat) {text : Text}
    (hfirst : ∀ a ∈ text.head?, drops a = false) (hlast : ∀ a ∈ text.getLast?, drops a = false) :
    trim drops (List.replicate m c ++ text ++ List.replicate n c) = text := by
  have hdrops : ∀ k, ∀ a ∈ List.replicate k c, drops a = true := fun k a ha => by
    rwa [List.eq_of_mem_replicate ha]
  have hfront : (List.replicate m c ++ text ++ List.replicate n c).dropWhile drops =
      if text = [] then [] else text ++ List.replicate n c := by
    rw [List.append_assoc, List.dropWhile_append_of_pos (hdrops m)]
    split
    · rename_i hempty
      simp [hempty, hc]
    · rename_i hne
      obtain ⟨a, rest, rfl⟩ := List.exists_cons_of_ne_nil hne
      exact dropWhile_eq_self hfirst
  rw [trim, hfront]
  split
  · rename_i hempty
    simp [hempty]
  · rw [List.reverse_append, List.reverse_replicate, List.dropWhile_append_of_pos (hdrops n),
      dropWhile_eq_self (by simpa using hlast), List.reverse_reverse]

theorem of_head?_dropWhile {text : Text} {c : Letter}
    (h : (text.dropWhile drops).head? = some c) : drops c = false := by
  have hfirst := List.head?_dropWhile_not drops text
  rwa [h] at hfirst

theorem of_getLast?_trim {text : Text} {c : Letter} (h : (trim drops text).getLast? = some c) :
    drops c = false := by
  rw [trim, List.getLast?_reverse] at h
  exact of_head?_dropWhile h

theorem of_head?_trim {text : Text} {c : Letter} (h : (trim drops text).head? = some c) :
    drops c = false := by
  -- What is left after the end was dropped begins as the text did before.
  obtain ⟨dropped, hdropped⟩ := List.dropWhile_suffix (l := (text.dropWhile drops).reverse) drops
  have hfront : trim drops text ++ dropped.reverse = text.dropWhile drops := by
    rw [trim, ← List.reverse_append, hdropped, List.reverse_reverse]
  obtain ⟨rest, hrest⟩ := List.head?_eq_some_iff.mp h
  have hfirst : (text.dropWhile drops).head? = some c := by
    rw [← hfront, hrest]
    rfl
  exact of_head?_dropWhile hfirst

end FunctionManifest.Text
