import FunctionManifest.Language.Operation
import FunctionManifest.Proofs.Assoc
import FunctionManifest.Proofs.Path.Compiling
import FunctionManifest.Proofs.Session.Run

/-!
# Alignment

Which parts of a path belong to which segment of a template, whatever the length of either. A part
belongs to one segment at most, and the parts of later segments come later in the path.
-/

namespace FunctionManifest.Pattern

/-- The segment at a place is aligned with the parts from one place up to another. Behind the
dividing segment places are counted from the end of the path. -/
inductive Aligned (pattern : Pattern) (count : Nat) : (place start stop : Nat) → Prop
  | undivided {place : Nat} (hnone : pattern.divider? = none)
      (hplace : place < pattern.segments.length) (hpart : place < count) :
      Aligned pattern count place place (place + 1)
  | before {k place : Nat} (hk : pattern.divider? = some k) (hplace : place < k)
      (hpart : place < count) : Aligned pattern count place place (place + 1)
  | across {k stop : Nat} (hk : pattern.divider? = some k) (hsome : k < stop)
      (hend : stop + (pattern.segments.length - (k + 1)) = count) : Aligned pattern count k k stop
  | behind {k place part : Nat} (hk : pattern.divider? = some k) (hbehind : k < place)
      (hplace : place < pattern.segments.length) (hroom : k ≤ part)
      (hend : part + (pattern.segments.length - place) = count) :
      Aligned pattern count place part (part + 1)

variable {pattern : Pattern}

theorem divider_lt {k : Nat} (h : pattern.divider? = some k) : k < pattern.segments.length := by
  rw [divider?_eq_findIdx?] at h
  exact (List.findIdx?_eq_some_iff_getElem.mp h).1

/-! ## Ranges of parts -/

/-- The parts that the segment at a place is aligned with. -/
def range? (pattern : Pattern) (count place : Nat) : Option (Nat × Nat) :=
  match pattern.divider? with
  | none => if place < count then some (place, place + 1) else none
  | some k =>
    -- How many segments there are from this one to the end.
    let rest := pattern.segments.length - place
    if place < k then if place < count then some (place, place + 1) else none
    else if place = k then
      if pattern.segments.length ≤ count then some (k, count + 1 - rest) else none
    else if k + rest ≤ count then some (count - rest, count + 1 - rest) else none

section

variable {k count place : Nat}

theorem range?_undivided (h : pattern.divider? = none) :
    pattern.range? count place = if place < count then some (place, place + 1) else none := by
  rw [range?, h]

theorem range?_before (hk : pattern.divider? = some k) (hplace : place < k) :
    pattern.range? count place = if place < count then some (place, place + 1) else none := by
  rw [range?, hk]
  exact if_pos hplace

theorem range?_across (hk : pattern.divider? = some k) :
    pattern.range? count k = if pattern.segments.length ≤ count then
      some (k, count + 1 - (pattern.segments.length - k)) else none := by
  simp only [range?, hk, Nat.lt_irrefl, if_false, if_true]

theorem range?_behind (hk : pattern.divider? = some k) (hplace : k < place) :
    pattern.range? count place = if k + (pattern.segments.length - place) ≤ count then
      some (count - (pattern.segments.length - place),
        count + 1 - (pattern.segments.length - place)) else none := by
  have hnot : ¬ place < k := by omega
  have hne : place ≠ k := by omega
  simp only [range?, hk, if_neg hnot, if_neg hne]

end

section

variable {count place start stop : Nat}

theorem aligned_iff : pattern.Aligned count place start stop ↔
    place < pattern.segments.length ∧ pattern.range? count place = some (start, stop) := by
  constructor
  · intro h
    cases h with
    | undivided hnone hplace hpart =>
      rw [range?_undivided hnone, if_pos hpart]
      exact ⟨hplace, rfl⟩
    | before hk hplace hpart =>
      have hlt := divider_lt hk
      rw [range?_before hk hplace, if_pos hpart]
      exact ⟨by omega, rfl⟩
    | across hk hsome hend =>
      have hlt := divider_lt hk
      have hstop : count + 1 - (pattern.segments.length - place) = stop := by omega
      rw [range?_across hk, if_pos (by omega), hstop]
      exact ⟨hlt, rfl⟩
    | behind hk hbehind hplace hroom hend =>
      have hstart : count - (pattern.segments.length - place) = start := by omega
      have hstop : count + 1 - (pattern.segments.length - place) = start + 1 := by omega
      rw [range?_behind hk hbehind, if_pos (by omega), hstart, hstop]
      exact ⟨hplace, rfl⟩
  · rintro ⟨hplace, hrange⟩
    cases hdivider : pattern.divider? with
    | none =>
      rw [range?_undivided hdivider, Option.ite_none_right_eq_some] at hrange
      obtain ⟨hpart, hrange⟩ := hrange
      cases hrange
      exact .undivided hdivider hplace hpart
    | some k =>
      rcases Nat.lt_trichotomy place k with hbefore | rfl | hbehind
      · rw [range?_before hdivider hbefore, Option.ite_none_right_eq_some] at hrange
        obtain ⟨hpart, hrange⟩ := hrange
        cases hrange
        exact .before hdivider hbefore hpart
      · rw [range?_across hdivider, Option.ite_none_right_eq_some] at hrange
        obtain ⟨hroom, hrange⟩ := hrange
        cases hrange
        exact .across hdivider (by omega) (by omega)
      · rw [range?_behind hdivider hbehind, Option.ite_none_right_eq_some] at hrange
        obtain ⟨hroom, hrange⟩ := hrange
        cases hrange
        have hstop : count + 1 - (pattern.segments.length - place) =
            count - (pattern.segments.length - place) + 1 := by omega
        rw [hstop]
        exact .behind hdivider hbehind hplace (by omega) (by omega)

theorem Aligned.within (h : pattern.Aligned count place start stop) :
    start < stop ∧ stop ≤ count := by
  cases h with
  | undivided | before => omega
  | across | behind => omega

theorem Aligned.unique {start' stop' : Nat} (h : pattern.Aligned count place start stop)
    (h' : pattern.Aligned count place start' stop') : start = start' ∧ stop = stop' := by
  have hsame := (aligned_iff.mp h).2.symm.trans (aligned_iff.mp h').2
  simpa using hsame

/-- Later segments have later parts. -/
theorem Aligned.ordered {place' start' stop' : Nat} (h : pattern.Aligned count place start stop)
    (h' : pattern.Aligned count place' start' stop') (hlt : place < place') : stop ≤ start' := by
  -- Segments before, at and behind the dividing one have their parts in this order.
  cases h <;> cases h' <;> simp_all <;> omega

end

/-! ## Blocks by place -/

/-- The block of a segment with its place. -/
def blockAt? (pattern : Pattern) (parts : List Text) (placed : Segment × Nat) :
    Option (Segment × List Text) :=
  (pattern.range? parts.length placed.2).map fun range =>
    (placed.1, parts.extract range.1 range.2)

theorem extract_one {parts : List Text} {m : Nat} (h : m < parts.length) :
    parts.extract m (m + 1) = [parts[m]] := by
  rw [List.extract_eq_take_drop, List.drop_eq_getElem_cons h, Nat.add_sub_cancel_left]
  rfl

/-- Segments paired with parts one by one have these at consecutive places. -/
theorem oneEach_eq_filterMap (parts : List Text) (index : Nat → Nat) (segments : List Segment)
    (a m : Nat) (h : ∀ i < segments.length, index (a + i) = m + i) :
    oneEach segments (parts.drop m) = (segments.zipIdx a).filterMap fun placed =>
      if index placed.2 < parts.length then
        some (placed.1, parts.extract (index placed.2) (index placed.2 + 1)) else none := by
  induction segments generalizing a m with
  | nil => rfl
  | cons segment rest ih =>
    have hrest := ih (a + 1) (m + 1) fun i hi => by
      have harg : a + 1 + i = a + (i + 1) := by omega
      have hnext := h (i + 1) (by simpa using hi)
      rw [harg]
      omega
    have hfirst : index a = m := h 0 (by simp)
    rw [List.zipIdx_cons, List.filterMap_cons, ← hrest]
    rcases Nat.lt_or_ge m parts.length with hlt | hge
    · simp only [hfirst, hlt, if_true, extract_one hlt]
      rw [List.drop_eq_getElem_cons hlt]
      rfl
    · have hnone : ∀ segments, oneEach segments [] = [] := fun _ => by simp [oneEach]
      rw [List.drop_eq_nil_of_le hge, List.drop_eq_nil_of_le (by omega), hnone, hnone]
      simp [hfirst, Nat.not_lt.mpr hge]

section

variable {k : Nat} (hk : pattern.divider? = some k) (parts : List Text)

include hk

theorem oneEach_before :
    oneEach (pattern.segments.take k) parts =
      (pattern.segments.take k).zipIdx.filterMap (pattern.blockAt? parts) := by
  have hall := oneEach_eq_filterMap parts id (pattern.segments.take k) 0 0 (by simp)
  rw [List.drop_zero] at hall
  refine hall.trans (List.filterMap_congr fun placed hmem => ?_)
  have hbefore : placed.2 < k := by
    have hlt := List.snd_lt_add_of_mem_zipIdx hmem
    rw [List.length_take] at hlt
    omega
  simp only [blockAt?, range?_before hk hbefore, id]
  split <;> rfl

/-- On a short path the first segments behind the dividing one have no part of their own. -/
theorem oneEach_behind :
    let tail := pattern.segments.drop (k + 1)
    let rest := parts.drop k
    oneEach (tail.drop (tail.length - rest.length)) (rest.drop (rest.length - tail.length)) =
      (tail.zipIdx (k + 1)).filterMap (pattern.blockAt? parts) := by
  intro tail rest
  have hklt := divider_lt hk
  have htail : tail.length = pattern.segments.length - (k + 1) := List.length_drop
  have hrest : rest.length = parts.length - k := List.length_drop
  generalize hmissing : tail.length - rest.length = missing
  have hzip : tail.zipIdx (k + 1) = (tail.take missing).zipIdx (k + 1) ++
      (tail.drop missing).zipIdx (k + 1 + missing) := by
    conv_lhs => rw [← List.take_append_drop missing tail]
    rw [List.zipIdx_append, List.length_take, Nat.min_eq_left (by omega)]
  have hnone : ((tail.take missing).zipIdx (k + 1)).filterMap (pattern.blockAt? parts) = [] := by
    refine List.filterMap_eq_nil_iff.mpr fun placed hmem => ?_
    have hge := List.le_snd_of_mem_zipIdx hmem
    have hlt := List.snd_lt_add_of_mem_zipIdx hmem
    rw [List.length_take] at hlt
    have hroom : ¬ k + (pattern.segments.length - placed.2) ≤ parts.length := by omega
    rw [blockAt?, range?_behind hk (by omega), if_neg hroom]
    rfl
  have hall := oneEach_eq_filterMap parts
    (fun place => parts.length - (pattern.segments.length - place)) (tail.drop missing)
    (k + 1 + missing) (k + (rest.length - tail.length)) (by
      intro i hi
      rw [List.length_drop] at hi
      omega)
  have hdrop : rest.drop (rest.length - tail.length) =
      parts.drop (k + (rest.length - tail.length)) := List.drop_drop ..
  rw [hzip, List.filterMap_append, hnone, List.nil_append, hdrop, hall]
  refine List.filterMap_congr fun placed hmem => ?_
  have hge := List.le_snd_of_mem_zipIdx hmem
  have hlt := List.snd_lt_add_of_mem_zipIdx hmem
  rw [List.length_drop] at hlt
  have hroom : k + (pattern.segments.length - placed.2) ≤ parts.length := by omega
  have hin : parts.length - (pattern.segments.length - placed.2) < parts.length := by omega
  have hstop : parts.length + 1 - (pattern.segments.length - placed.2) =
      parts.length - (pattern.segments.length - placed.2) + 1 := by omega
  rw [blockAt?, range?_behind hk (by omega), if_pos hroom, if_pos hin, hstop]
  rfl

/-- What lies between the first and the last segments belongs to the dividing one. -/
theorem middle_eq :
    let rest := parts.drop k
    let middle := rest.take (rest.length - (pattern.segments.drop (k + 1)).length)
    (if middle = [] then [] else (pattern.segments.drop k).head?.toList.map (·, middle)) =
      (pattern.blockAt? parts (pattern.segments.get ⟨k, divider_lt hk⟩, k)).toList := by
  intro rest middle
  have hklt := divider_lt hk
  have hlength : middle.length = parts.length - k - (pattern.segments.length - (k + 1)) := by
    simp only [middle, rest, List.length_take, List.length_drop]
    omega
  by_cases hsome : pattern.segments.length ≤ parts.length
  · have hne : middle ≠ [] := List.ne_nil_of_length_pos (by omega)
    have hmiddle : middle = parts.extract k (parts.length + 1 - (pattern.segments.length - k)) := by
      simp only [middle, rest, List.extract_eq_take_drop, List.length_drop]
      congr 1
      omega
    rw [if_neg hne, hmiddle, List.drop_eq_getElem_cons hklt, blockAt?, range?_across hk,
      if_pos hsome]
    rfl
  · have hnil : middle = [] := List.eq_nil_of_length_eq_zero (by omega)
    rw [if_pos hnil, blockAt?, range?_across hk, if_neg hsome]
    rfl

/-- Around the dividing segment blocks are those of the segments before and behind it. -/
theorem blocks_of_divider :
    pattern.blocks parts = oneEach (pattern.segments.take k) parts ++
      (pattern.blockAt? parts (pattern.segments.get ⟨k, divider_lt hk⟩, k)).toList ++
      ((pattern.segments.drop (k + 1)).zipIdx (k + 1)).filterMap (pattern.blockAt? parts) := by
  rw [blocks, hk]
  simp only [middle_eq hk, oneEach_behind hk]

end

/-- There is one block for each segment that is aligned, in the order of the template. -/
theorem blocks_eq_filterMap (pattern : Pattern) (parts : List Text) :
    pattern.blocks parts = pattern.segments.zipIdx.filterMap (pattern.blockAt? parts) := by
  cases hdivider : pattern.divider? with
  | none =>
    have hall := oneEach_eq_filterMap parts id pattern.segments 0 0 (by simp)
    rw [List.drop_zero] at hall
    rw [blocks, hdivider]
    refine hall.trans (List.filterMap_congr fun placed _ => ?_)
    simp only [blockAt?, range?_undivided hdivider, id]
    split <;> rfl
  | some k =>
    have hk := divider_lt hdivider
    have hzip : pattern.segments.zipIdx = (pattern.segments.take k).zipIdx ++
        (pattern.segments[k], k) :: (pattern.segments.drop (k + 1)).zipIdx (k + 1) := by
      conv_lhs => rw [← List.take_append_drop k pattern.segments, List.drop_eq_getElem_cons hk]
      rw [List.zipIdx_append, List.zipIdx_cons]
      simp [Nat.min_eq_left (Nat.le_of_lt hk)]
    rw [blocks_of_divider hdivider, oneEach_before hdivider, hzip, List.filterMap_append,
      List.filterMap_cons]
    cases hblock : pattern.blockAt? parts (pattern.segments[k], k) <;> simp

end FunctionManifest.Pattern
