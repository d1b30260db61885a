import FunctionManifest.Proofs.Path.Capturing
import FunctionManifest.Proofs.Path.Extracting
import FunctionManifest.Trigger.Filters
import Mathlib.Data.List.TakeWhile

/-!
# Parting event filters

Each filter goes to one side, and either side keeps their order. Which side it is can be read off the
text of the filter: a pattern has an asterisk or a capture. So an exact filter binds nothing.
-/

namespace FunctionManifest

/-! ## Letters of a path -/

namespace Text

variable {text : Text} {c : Letter}

theorem mem_dropWhile_iff {drops : Letter → Bool} (hc : drops c = false) :
    c ∈ text.dropWhile drops ↔ c ∈ text := by
  refine ⟨fun h => (List.dropWhile_suffix drops).subset h, fun h => ?_⟩
  rw [← List.takeWhile_append_dropWhile (p := drops) (l := text), List.mem_append] at h
  refine h.resolve_left fun hbefore => ?_
  rw [List.mem_takeWhile_imp hbefore] at hc
  cases hc

theorem mem_trim_iff {drops : Letter → Bool} (hc : drops c = false) :
    c ∈ trim drops text ↔ c ∈ text := by
  rw [trim, List.mem_reverse, mem_dropWhile_iff hc, List.mem_reverse, mem_dropWhile_iff hc]

/-- What is joined is made of the parts and the separator. -/
theorem mem_or_of_mem_join {separator : Text} {parts : List Text} (h : c ∈ join separator parts) :
    c ∈ separator ∨ ∃ part ∈ parts, c ∈ part := by
  induction parts with
  | nil => cases h
  | cons first rest ih =>
    cases rest with
    | nil => exact .inr ⟨first, List.mem_cons_self, by simpa [join] using h⟩
    | cons next rest =>
      rw [join, List.intercalate_cons_cons, List.mem_append, List.mem_append] at h
      rcases h with (h | h) | h
      · exact .inr ⟨first, List.mem_cons_self, h⟩
      · exact .inl h
      · exact (ih h).imp_right fun ⟨part, hpart, hmem⟩ => ⟨part, List.mem_cons_of_mem _ hpart, hmem⟩

/-- Only the separators are lost in splitting. -/
theorem exists_mem_split_iff {separator : Letter} (hc : c ≠ separator) :
    (∃ part ∈ split separator text, c ∈ part) ↔ c ∈ text := by
  constructor
  · rintro ⟨part, hpart, hmem⟩
    rw [← join_split separator text]
    exact (infix_join hpart).subset hmem
  · intro hmem
    rw [← join_split separator text] at hmem
    exact (mem_or_of_mem_join hmem).resolve_left (by simpa using hc)

end Text

theorem exists_mem_splitPath_iff {path : Text} {c : Letter} (hc : c ≠ .char '/') :
    (∃ part ∈ splitPath path, c ∈ part) ↔ c ∈ path := by
  have htrim : c ∈ Text.trim (· = .char '/') path ↔ c ∈ path := Text.mem_trim_iff (by simpa using hc)
  rw [← htrim, splitPath]
  split
  · rename_i hempty
    simp [hempty]
  · exact Text.exists_mem_split_iff hc

/-! ## Segments -/

namespace Compiled

open Segment

/-- What becomes of a part: what it is by itself, unless it is another capture of several parts. -/
def Compiles (part : Text) (segment : Segment) : Prop :=
  segment = ofPart part ∨ segment = .literal part ∧ ∃ name, ofPart part = .multi name

theorem compiles_next (before : Compiled) (part : Text) : Compiles part (before.next part) := by
  unfold next
  split
  · cases hpart : ofPart part with
    | multi name => exact .inr ⟨rfl, name, hpart⟩
    | _ => exact .inl hpart.symm
  · exact .inl rfl

/-- Each part becomes one segment. -/
theorem exists_compiles (before : Compiled) (parts : List Text) :
    ∃ news, (parts.foldl add before).segments = before.segments ++ news ∧
      List.Forall₂ Compiles parts news := by
  induction parts generalizing before with
  | nil => exact ⟨[], (List.append_nil _).symm, .nil⟩
  | cons part rest ih =>
    obtain ⟨news, hsegments, hnews⟩ := ih (before.add part)
    refine ⟨before.next part :: news, ?_, .cons (compiles_next before part) hnews⟩
    rw [List.foldl_cons, hsegments, add_eq]
    simp

end Compiled

/-! ## Patterns -/

/-- A template that an exact comparison cannot match: it has an asterisk, or one of its segments is
written as a capture. -/
def NeedsPattern (template : Text) : Prop :=
  Letter.char '*' ∈ template ∨
    ∃ part ∈ splitPath template, (Segment.ofPart part).captureName?.isSome = true

namespace Segment

/-- The segment is matched by more than its text. -/
def isOpen : Segment → Bool
  | .literal text => isWildcard text
  | _ => true

theorem isOpen_literal_iff {text : Text} :
    (Segment.literal text).isOpen = true ↔ Letter.char '*' ∈ text := by
  simp [isOpen, isWildcard]

theorem asterisk_mem_of_multi {part name : Text} (h : ofPart part = .multi name) :
    Letter.char '*' ∈ part := by
  rcases (ofPart_eq_capture_iff rfl).mp h with hpart | ⟨whole, hwhole, rfl⟩
  · obtain ⟨-, rfl⟩ := denotes_multi_iff.mp hpart
    simp [Text.ofString, Text.ofChars]
  · obtain ⟨-, rfl⟩ := denotes_multi_iff.mp hwhole
    simp [Text.ofString, Text.ofChars]

/-- A part that became literal has its asterisks still. -/
theorem isOpen_iff {part : Text} {segment : Segment} (h : Compiled.Compiles part segment) :
    segment.isOpen = true ↔
      Letter.char '*' ∈ part ∨ (ofPart part).captureName?.isSome = true := by
  obtain hliteral | ⟨name, -, hsingle | hmulti⟩ := ofPart_cases part
  · obtain rfl | ⟨-, name, hmulti⟩ := h
    · simp [hliteral, isOpen_literal_iff, captureName?]
    · rw [hliteral] at hmulti
      cases hmulti
  · obtain rfl | ⟨-, other, hmulti⟩ := h
    · simp [hsingle, isOpen, captureName?]
    · rw [hsingle] at hmulti
      cases hmulti
  · have hasterisk := asterisk_mem_of_multi hmulti
    obtain rfl | ⟨rfl, -⟩ := h
    · simp [hmulti, isOpen, captureName?]
    · simp [isOpen_literal_iff, hasterisk]

end Segment

namespace Pattern

variable {pattern : Pattern}

theorem hasWildcards_eq (pattern : Pattern) :
    pattern.hasWildcards = pattern.segments.any Segment.isOpen := rfl

theorem hasWildcards_iff : pattern.hasWildcards = true ↔ NeedsPattern pattern.template := by
  obtain ⟨news, hsegments, hnews⟩ :=
    Compiled.exists_compiles .empty (splitPath pattern.template)
  have hsegments : pattern.segments = news := hsegments
  rw [hasWildcards_eq, hsegments, List.any_eq_true, NeedsPattern,
    ← exists_mem_splitPath_iff (c := .char '*') (by decide), ← exists_or]
  constructor
  · rintro ⟨segment, hsegment, hopen⟩
    obtain ⟨part, hpart, hcompiles⟩ := exists_left_of_forall₂ hnews hsegment
    refine ⟨part, ?_⟩
    rw [← and_or_left]
    exact ⟨hpart, (Segment.isOpen_iff hcompiles).mp hopen⟩
  · rintro ⟨part, h⟩
    rw [← and_or_left] at h
    obtain ⟨segment, hsegment, hcompiles⟩ := exists_right_of_forall₂ hnews h.1
    exact ⟨segment, hsegment, (Segment.isOpen_iff hcompiles).mpr h.2⟩

/-- What an exact comparison can match binds nothing on any path. -/
theorem extractMatches_of_not_needsPattern (h : ¬ NeedsPattern pattern.template) (path : Text) :
    pattern.extractMatches path = [] := by
  refine extractMatches_of_not_hasCaptures ?_
  rw [← hasWildcards_iff, hasWildcards_eq, List.any_eq_true, not_exists] at h
  refine List.any_eq_false.mpr fun segment hsegment hcapture => h segment ⟨hsegment, ?_⟩
  cases segment with
  | literal => cases hcapture
  | _ => rfl

end Pattern

/-! ## Sides -/

namespace Heap

/-- The value is a text, or a pattern with this template. -/
def Spells (heap : Heap) (v : Value) (template : Text) : Prop :=
  v = .text template ∨ ∃ segments, heap.cell? v = some (.pattern ⟨template⟩ segments)

/-- Each filter is put on one side, in order. What is spelled goes where its text belongs, and all else
is exact as it is. -/
inductive Divides (heap : Heap) : Entries → Entries → Entries → Prop
  | nil : Divides heap [] [] []
  | pattern {filters exact patterns : Entries} {key v : Value} {template : Text}
      (hv : heap.Spells v template) (hneeds : NeedsPattern template)
      (rest : Divides heap filters exact patterns) :
      Divides heap ((key, v) :: filters) exact ((key, .text template) :: patterns)
  | exact {filters exact patterns : Entries} {key v : Value} {template : Text}
      (hv : heap.Spells v template) (hplain : ¬ NeedsPattern template)
      (rest : Divides heap filters exact patterns) :
      Divides heap ((key, v) :: filters) ((key, .text template) :: exact) patterns
  | other {filters exact patterns : Entries} {key v : Value}
      (hv : ∀ template, ¬ heap.Spells v template) (rest : Divides heap filters exact patterns) :
      Divides heap ((key, v) :: filters) ((key, v) :: exact) patterns

variable {heap : Heap} {v : Value} {filters exact patterns : Entries} {template : Text}

theorem filterPattern?_eq_some_iff :
    filterPattern? heap v = some ⟨template⟩ ↔ heap.Spells v template := by
  cases v with
  | text t => simp [filterPattern?, Spells, cell?]
  | ref address =>
    cases hcell : heap.cell? (.ref address) with
    | none => simp [filterPattern?, Spells, hcell]
    | some cell => cases cell <;> simp [filterPattern?, Spells, hcell]
  | _ => simp [filterPattern?, Spells, cell?]

theorem filterPattern?_eq_none_iff :
    filterPattern? heap v = none ↔ ∀ template, ¬ heap.Spells v template := by
  rw [Option.eq_none_iff_forall_ne_some]
  exact ⟨fun h template hv => h _ (filterPattern?_eq_some_iff.mpr hv),
    fun h pattern hpattern => h _ (filterPattern?_eq_some_iff.mp hpattern)⟩

theorem divides_splitFilters (heap : Heap) (filters : Entries) :
    heap.Divides filters (splitFilters heap filters).1 (splitFilters heap filters).2 := by
  induction filters with
  | nil => exact .nil
  | cons filter rest ih =>
    obtain ⟨key, v⟩ := filter
    unfold splitFilters at ih ⊢
    cases hpattern : filterPattern? heap v with
    | none =>
      have hside : patternFilter? heap v = none := by rw [patternFilter?, hpattern]; rfl
      have hexact : exactFilter heap v = v := by rw [exactFilter, hpattern]; rfl
      simp only [List.filter_cons, List.filterMap_cons, hside, Option.isNone_none, if_true,
        List.map_cons, hexact, Option.map_none]
      exact .other (filterPattern?_eq_none_iff.mp hpattern) ih
    | some pattern =>
      have hspells : heap.Spells v pattern.template := filterPattern?_eq_some_iff.mp hpattern
      have hexact : exactFilter heap v = .text pattern.template := by rw [exactFilter, hpattern]; rfl
      by_cases hneeds : NeedsPattern pattern.template
      · have hside : patternFilter? heap v = some pattern.template := by
          rw [patternFilter?, hpattern, Option.bind_some,
            if_pos (Pattern.hasWildcards_iff.mpr hneeds)]
        simp only [List.filter_cons, List.filterMap_cons, hside, Option.isNone_some,
          Bool.false_eq_true, if_false, Option.map_some]
        exact .pattern hspells hneeds ih
      · have hside : patternFilter? heap v = none := by
          rw [patternFilter?, hpattern, Option.bind_some,
            if_neg fun h => hneeds (Pattern.hasWildcards_iff.mp h)]
        simp only [List.filter_cons, List.filterMap_cons, hside, Option.isNone_none, if_true,
          List.map_cons, hexact, Option.map_none]
        exact .exact hspells hneeds ih

namespace Divides

variable (h : heap.Divides filters exact patterns)

include h

theorem perm : (exact.map Prod.fst ++ patterns.map Prod.fst).Perm (filters.map Prod.fst) := by
  induction h with
  | nil => exact .nil
  | pattern _ _ _ ih => exact List.perm_middle.trans (ih.cons _)
  | exact _ _ _ ih => exact ih.cons _
  | other _ _ ih => exact ih.cons _

theorem sublist_exact : (exact.map Prod.fst).Sublist (filters.map Prod.fst) := by
  induction h with
  | nil => exact .slnil
  | pattern _ _ _ ih => exact ih.cons _
  | exact _ _ _ ih => exact ih.cons_cons _
  | other _ _ ih => exact ih.cons_cons _

theorem sublist_patterns : (patterns.map Prod.fst).Sublist (filters.map Prod.fst) := by
  induction h with
  | nil => exact .slnil
  | pattern _ _ _ ih => exact ih.cons_cons _
  | exact _ _ _ ih => exact ih.cons _
  | other _ _ ih => exact ih.cons _

/-- A text among the exact filters is no pattern. -/
theorem not_needsPattern {key : Value} (hmem : (key, .text template) ∈ exact) :
    ¬ NeedsPattern template := by
  induction h with
  | nil => cases hmem
  | pattern _ _ _ ih => exact ih hmem
  | exact _ hplain _ ih =>
    rcases List.mem_cons.mp hmem with hfirst | hmem
    · cases hfirst
      exact hplain
    · exact ih hmem
  | other hv _ ih =>
    rcases List.mem_cons.mp hmem with hfirst | hmem
    · cases hfirst
      exact absurd (.inl rfl) (hv template)
    · exact ih hmem

theorem exists_text {entry : Value × Value} (hmem : entry ∈ patterns) :
    ∃ template, entry.2 = .text template := by
  induction h with
  | nil => cases hmem
  | pattern _ _ _ ih =>
    rcases List.mem_cons.mp hmem with rfl | hmem
    · exact ⟨_, rfl⟩
    · exact ih hmem
  | exact _ _ _ ih | other _ _ ih => exact ih hmem

end Divides

end Heap

end FunctionManifest
