import FunctionManifest.Path.Pattern
import FunctionManifest.Proofs.Path.Splitting

/-!
# Compiled templates

The place that divides paths is that of the first spanning segment, and no other segment is a
capture of several parts. A template that is written from its segments is compiled to them again.
-/

namespace FunctionManifest

namespace Segment

/-- A segment as it stands in a template. -/
def written : Segment → Text
  | .literal text => text
  | .single name => "\x7b" ++ name ++ "\x7d"
  | .multi name => "\x7b" ++ name ++ "=**\x7d"

def IsName (name : Text) : Prop := name ≠ [] ∧ ∀ c ∈ name, isNameLetter c = true

/-! ## Parts -/

theorem captureOf_eq_some {name ending : Text} {segment : Segment}
    (h : captureOf name ending = some segment) : segment = .single name ∨ segment = .multi name := by
  unfold captureOf at h
  split at h
  · exact .inl (Option.some.inj h).symm
  · split at h
    · exact .inr (Option.some.inj h).symm
    · cases h

theorem capture?_eq_some {part : Text} {segment : Segment} (h : capture? part = some segment) :
    ∃ name, IsName name ∧ (segment = .single name ∨ segment = .multi name) := by
  unfold capture? at h
  split at h
  · rename_i body
    simp only at h
    split at h
    · cases h
    · rename_i hne
      exact ⟨_, ⟨hne, List.all_eq_true.mp List.all_takeWhile⟩, captureOf_eq_some h⟩
  · cases h

/-- A part is a literal of its own text, or a capture. -/
theorem ofPart_cases (part : Text) :
    ofPart part = .literal part ∨
      ∃ name, IsName name ∧ (ofPart part = .single name ∨ ofPart part = .multi name) := by
  unfold ofPart
  cases h : capture? part with
  | none => exact .inl rfl
  | some segment => exact .inr (capture?_eq_some h)

theorem capture?_braced {name ending : Text} (h : IsName name)
    (hending : ∀ c ∈ ending.head?, isNameLetter c = false) :
    capture? ("\x7b" ++ name ++ ending) = captureOf name ending := by
  have htake : (name ++ ending).takeWhile isNameLetter = name := by
    rw [List.takeWhile_append_of_pos h.2]
    cases ending with
    | nil => simp
    | cons c rest => simp [hending c rfl]
  have hdrop : (name ++ ending).dropWhile isNameLetter = ending := by
    rw [List.dropWhile_append_of_pos h.2]
    exact Text.dropWhile_eq_self hending
  change (if (name ++ ending).takeWhile isNameLetter = [] then none
    else captureOf ((name ++ ending).takeWhile isNameLetter)
      ((name ++ ending).dropWhile isNameLetter)) = _
  rw [htake, hdrop, if_neg h.1]

theorem ofPart_written_single {name : Text} (h : IsName name) :
    ofPart (written (.single name)) = .single name := by
  rw [written, ofPart, capture?_braced h (by decide)]
  rfl

theorem ofPart_written_multi {name : Text} (h : IsName name) :
    ofPart (written (.multi name)) = .multi name := by
  rw [written, ofPart, capture?_braced h (by decide)]
  rfl

theorem slash_not_mem_written {name : Text} (h : IsName name) :
    Letter.char '/' ∉ written (.single name) ∧ Letter.char '/' ∉ written (.multi name) := by
  have hname : Letter.char '/' ∉ name := fun hin => absurd (h.2 _ hin) (by decide)
  simp [written, Text.ofString, Text.ofChars, hname]

end Segment

namespace Compiled

open Segment

variable {before : Compiled}

/-! ## One more part -/

/-- The segment that a further part becomes. -/
def next (before : Compiled) (part : Text) : Segment :=
  if (ofPart part).spansMany && before.divider?.isSome then (ofPart part).demoted part
  else ofPart part

theorem add_eq (before : Compiled) (part : Text) :
    before.add part = ⟨before.segments ++ [before.next part],
      before.divider?.or (if (ofPart part).spansMany then some before.segments.length else none)⟩ := by
  simp only [add, next]
  cases (ofPart part).spansMany <;> cases before.divider? <;> rfl

/-- The segment is the part as a literal, or a capture that the part is written for. -/
theorem next_cases (before : Compiled) (part : Text) :
    before.next part = .literal part ∨
      ∃ name, IsName name ∧ before.next part = ofPart part ∧
        (ofPart part = .single name ∨ ofPart part = .multi name ∧ before.divider? = none) := by
  unfold next
  obtain hliteral | ⟨name, hname, hsingle | hmulti⟩ := ofPart_cases part
  · simp [hliteral, demoted]
  · exact .inr ⟨name, hname, by simp [hsingle, spansMany], .inl hsingle⟩
  · cases hdivider : before.divider? with
    | none => exact .inr ⟨name, hname, by simp, .inr ⟨hmulti, rfl⟩⟩
    | some k => simp [hmulti, demoted, spansMany]

/-- Adding the segment as it is written is adding the part. -/
theorem add_written_next (before : Compiled) (part : Text) :
    before.add (before.next part).written = before.add part := by
  obtain hliteral | ⟨name, hname, hnext, hsingle | ⟨hmulti, hnone⟩⟩ := before.next_cases part
  · rw [hliteral, written]
  · simp [hnext, add, hsingle, ofPart_written_single hname, spansMany]
  · simp only [hnext, add, hmulti, ofPart_written_multi hname, spansMany, hnone]

theorem isEmpty_written_next (before : Compiled) (part : Text) :
    (before.next part).written.isEmpty = part.isEmpty := by
  obtain hliteral | ⟨name, -, hnext, hcapture⟩ := before.next_cases part
  · rw [hliteral, written]
  · have hpart : part ≠ [] := by
      rintro rfl
      rcases hcapture with h | ⟨h, -⟩ <;> cases h
    rw [hnext, List.isEmpty_eq_false_iff.mpr hpart]
    rcases hcapture with h | ⟨h, -⟩ <;> rw [h] <;> rfl

theorem slash_not_mem_written_next {part : Text} (h : Letter.char '/' ∉ part) :
    Letter.char '/' ∉ (before.next part).written := by
  obtain hliteral | ⟨name, hname, hnext, hsingle | ⟨hmulti, -⟩⟩ := before.next_cases part
  · rwa [hliteral]
  · rw [hnext, hsingle]
    exact (slash_not_mem_written hname).1
  · rw [hnext, hmulti]
    exact (slash_not_mem_written hname).2

/-! ## The dividing segment -/

/-- The place that divides is that of the first spanning segment, and the only capture of several
parts can be there. -/
structure IsSound (compiled : Compiled) : Prop where
  divider : compiled.divider? = compiled.segments.findIdx? spansMany
  multi : ∀ place name, compiled.segments[place]? = some (.multi name) →
    compiled.divider? = some place

theorem IsSound.add (h : before.IsSound) (part : Text) : (before.add part).IsSound := by
  have hnext : before.divider? = none → before.next part = ofPart part := fun hnone => by
    simp [next, hnone]
  rw [add_eq]
  constructor
  · rw [List.findIdx?_append, ← h.divider]
    cases hdivider : before.divider? with
    | some k => rfl
    | none => cases hspans : (ofPart part).spansMany <;> simp [hnext hdivider, hspans]
  · intro place name hplace
    rcases Nat.lt_or_ge place before.segments.length with hold | hnew
    · rw [List.getElem?_append_left hold] at hplace
      simp [h.multi place name hplace]
    · rw [List.getElem?_append_right hnew, List.getElem?_singleton] at hplace
      obtain ⟨hlast, hmulti⟩ := Option.ite_none_right_eq_some.mp hplace
      -- What was added is such a capture only if nothing divided before.
      obtain hliteral | ⟨_, -, hsame, hsingle | ⟨hspans, hnone⟩⟩ := before.next_cases part
      · cases hliteral.symm.trans (Option.some.inj hmulti)
      · cases hsingle.symm.trans (hsame.symm.trans (Option.some.inj hmulti))
      · have hplace : place = before.segments.length := by omega
        simp [hnone, hspans, spansMany, hplace]

theorem isSound_ofParts (parts : List Text) : (ofParts parts).IsSound := by
  suffices hall : ∀ before : Compiled, before.IsSound → (parts.foldl Compiled.add before).IsSound from
    hall empty ⟨rfl, nofun⟩
  induction parts with
  | nil => exact fun _ h => h
  | cons part rest ih => exact fun before h => ih _ (h.add part)

/-! ## Writing -/

/-- Writing further segments and compiling them again gives the same, and so do their slashes and
empty texts. -/
theorem exists_news (before : Compiled) (parts : List Text) :
    ∃ news, (parts.foldl add before).segments = before.segments ++ news ∧
      (news.map written).foldl add before = parts.foldl add before ∧
      (news.map fun segment => segment.written.isEmpty) = parts.map List.isEmpty ∧
      ((∀ part ∈ parts, Letter.char '/' ∉ part) →
        ∀ segment ∈ news, Letter.char '/' ∉ segment.written) := by
  induction parts generalizing before with
  | nil => exact ⟨[], by simp, rfl, rfl, by simp⟩
  | cons part rest ih =>
    obtain ⟨news, hsegments, hagain, hempty, hplain⟩ := ih (before.add part)
    refine ⟨before.next part :: news, ?_, ?_, ?_, fun h => ?_⟩
    · rw [List.foldl_cons, hsegments, add_eq]
      simp
    · rw [List.map_cons, List.foldl_cons, add_written_next, hagain, List.foldl_cons]
    · rw [List.map_cons, hempty, List.map_cons, isEmpty_written_next]
    · refine List.forall_mem_cons.mpr ⟨?_, hplain fun p hp => h p (List.mem_cons_of_mem _ hp)⟩
      exact slash_not_mem_written_next (h part List.mem_cons_self)

end Compiled

namespace Pattern

variable (pattern : Pattern)

/-- The template that the segments are written as. -/
def written : Text := Text.join "/" (pattern.segments.map Segment.written)

theorem isSound_compiled : pattern.compiled.IsSound := Compiled.isSound_ofParts _

theorem divider?_eq_findIdx? : pattern.divider? = pattern.segments.findIdx? Segment.spansMany :=
  pattern.isSound_compiled.divider

theorem compiled_written : (Pattern.mk pattern.written).compiled = pattern.compiled := by
  obtain ⟨news, hsegments, hagain, hempty, hplain⟩ :=
    Compiled.exists_news .empty (splitPath pattern.template)
  have hnews : pattern.segments = news := hsegments
  have hparts := areParts_splitPath pattern.template
  -- The parts that are written are empty where those of the template were.
  have hwritten : (news.map Segment.written).map List.isEmpty =
      (splitPath pattern.template).map List.isEmpty := by
    rw [← hempty, List.map_map]
    rfl
  have hends : AreParts (news.map Segment.written) :=
    hparts.of_isEmpty (by simpa using hplain hparts.plain) hwritten
  rw [compiled, written, hnews, splitPath_join hends]
  exact hagain

end Pattern

end FunctionManifest
