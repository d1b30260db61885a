import FunctionManifest.Proofs.Path.Equality

/-!
# The grammar of captures

A part is a capture if it is written as one from its first letter to its last: a name in braces,
with or without how many parts it binds. A line break behind a capture is overlooked, and in no other
way is a part taken for a capture that it is not.
-/

namespace FunctionManifest

namespace Segment

/-- The whole part is written as this capture. -/
inductive Denotes : Text → Segment → Prop
  | bare {name : Text} (h : IsName name) : Denotes ("\x7b" ++ name ++ "\x7d") (.single name)
  | one {name : Text} (h : IsName name) : Denotes ("\x7b" ++ name ++ "=*\x7d") (.single name)
  | many {name : Text} (h : IsName name) : Denotes ("\x7b" ++ name ++ "=**\x7d") (.multi name)

/-- The segment is the capture that the part is written as, or else the part is a literal. -/
structure IsExact (part : Text) (segment : Segment) : Prop where
  multi : ∀ name, segment = .multi name ↔ IsName name ∧ part = "\x7b" ++ name ++ "=**\x7d"
  single : ∀ name, segment = .single name ↔
    IsName name ∧ (part = "\x7b" ++ name ++ "\x7d" ∨ part = "\x7b" ++ name ++ "=*\x7d")
  literal : (∀ name, IsName name → part ≠ "\x7b" ++ name ++ "\x7d" ∧
    part ≠ "\x7b" ++ name ++ "=*\x7d" ∧ part ≠ "\x7b" ++ name ++ "=**\x7d") →
      segment = .literal part

variable {part name ending : Text} {segment : Segment}

/-! ## Captures -/

theorem Denotes.getLast? (h : Denotes part segment) : part.getLast? = some (.char '\x7d') := by
  cases h <;> simp [Text.ofString, Text.ofChars, List.getLast?_cons]

theorem Denotes.isSome_captureName? (h : Denotes part segment) :
    segment.captureName?.isSome = true := by
  cases h <;> rfl

theorem denotes_single_iff : Denotes part (.single name) ↔
    IsName name ∧ (part = "\x7b" ++ name ++ "\x7d" ∨ part = "\x7b" ++ name ++ "=*\x7d") := by
  constructor
  · rintro (h | h)
    · exact ⟨h, .inl rfl⟩
    · exact ⟨h, .inr rfl⟩
  · rintro ⟨h, rfl | rfl⟩
    · exact .bare h
    · exact .one h

theorem denotes_multi_iff :
    Denotes part (.multi name) ↔ IsName name ∧ part = "\x7b" ++ name ++ "=**\x7d" := by
  constructor
  · intro h
    cases h with
    | many h => exact ⟨h, rfl⟩
  · rintro ⟨h, rfl⟩
    exact .many h

theorem captureOf_eq_some_iff : captureOf name ending = some segment ↔
    ending ∈ [Text.ofString "\x7d", "\x7d\n", "=*\x7d", "=*\x7d\n"] ∧ segment = .single name ∨
      ending ∈ [Text.ofString "=**\x7d", "=**\x7d\n"] ∧ segment = .multi name := by
  unfold captureOf
  split
  · rename_i hone
    have hmany : ending ∉ [Text.ofString "=**\x7d", "=**\x7d\n"] := fun hmany => by
      simp only [List.mem_cons, List.not_mem_nil, or_false] at hone hmany
      rcases hone with rfl | rfl | rfl | rfl <;> exact absurd hmany (by decide)
    simp [hone, hmany, eq_comm]
  · rename_i hone
    split <;> simp_all [eq_comm]

/-- No letter of a name ends a capture. -/
theorem isNameLetter_head?_ending (h : captureOf name ending = some segment) :
    ∀ c ∈ ending.head?, isNameLetter c = false := by
  have hending : ending ∈ [Text.ofString "\x7d", "\x7d\n", "=*\x7d", "=*\x7d\n", "=**\x7d",
      "=**\x7d\n"] := by
    rcases captureOf_eq_some_iff.mp h with ⟨h, -⟩ | ⟨h, -⟩ <;> simp at h ⊢ <;> grind
  clear h
  revert ending
  decide

theorem capture?_eq_some_iff_ending : capture? part = some segment ↔
    ∃ name ending, IsName name ∧ part = "\x7b" ++ name ++ ending ∧
      captureOf name ending = some segment := by
  constructor
  · intro h
    unfold capture? at h
    split at h
    · rename_i body
      simp only at h
      split at h
      · cases h
      · rename_i hne
        refine ⟨_, _, ⟨hne, List.all_eq_true.mp List.all_takeWhile⟩, ?_, h⟩
        exact congrArg (Letter.char '\x7b' :: ·) List.takeWhile_append_dropWhile.symm
    · cases h
  · rintro ⟨name, ending, hname, rfl, h⟩
    rw [capture?_braced hname (isNameLetter_head?_ending h), h]

/-- Captures are read from the parts that are written as one, and from these with a line break. -/
theorem capture?_eq_some_iff : capture? part = some segment ↔
    Denotes part segment ∨ ∃ whole, Denotes whole segment ∧ part = whole ++ "\n" := by
  rw [capture?_eq_some_iff_ending]
  constructor
  · rintro ⟨name, ending, hname, rfl, h⟩
    rcases captureOf_eq_some_iff.mp h with ⟨hending, rfl⟩ | ⟨hending, rfl⟩
    · simp only [List.mem_cons, List.not_mem_nil, or_false] at hending
      rcases hending with rfl | rfl | rfl | rfl
      · exact .inl (.bare hname)
      · exact .inr ⟨_, .bare hname, by simp [Text.ofString, Text.ofChars]⟩
      · exact .inl (.one hname)
      · exact .inr ⟨_, .one hname, by simp [Text.ofString, Text.ofChars]⟩
    · simp only [List.mem_cons, List.not_mem_nil, or_false] at hending
      rcases hending with rfl | rfl
      · exact .inl (.many hname)
      · exact .inr ⟨_, .many hname, by simp [Text.ofString, Text.ofChars]⟩
  · rintro (h | ⟨whole, h, rfl⟩) <;> cases h with
    | bare h | one h | many h =>
      exact ⟨_, _, h, by simp [Text.ofString, Text.ofChars]; rfl, rfl⟩

/-! ## Parts -/

theorem ofPart_eq_capture_iff (hcapture : segment.captureName?.isSome = true) :
    ofPart part = segment ↔
      Denotes part segment ∨ ∃ whole, Denotes whole segment ∧ part = whole ++ "\n" := by
  rw [← capture?_eq_some_iff, ofPart]
  cases capture? part with
  | none =>
    refine iff_of_false ?_ (by simp)
    rintro rfl
    cases hcapture
  | some found => simp

theorem ofPart_of_line {whole : Text} (h : Denotes whole segment) :
    ofPart (whole ++ "\n") = segment :=
  (ofPart_eq_capture_iff h.isSome_captureName?).mpr (.inr ⟨whole, h, rfl⟩)

theorem Denotes.ne_line {whole other : Text} (h : Denotes whole segment) :
    whole ≠ other ++ "\n" := by
  rintro rfl
  have hlast := h.getLast?
  simp [Text.ofString, Text.ofChars] at hlast

/-- A part is read as it is written unless it is a capture with a line break behind it. -/
theorem isExact_ofPart_iff : IsExact part (ofPart part) ↔
    ∀ whole segment, Denotes whole segment → part ≠ whole ++ "\n" := by
  constructor
  · rintro h whole segment hwhole rfl
    rw [ofPart_of_line hwhole] at h
    cases segment with
    | literal text => cases hwhole.isSome_captureName?
    | single name => exact Denotes.ne_line (denotes_single_iff.mpr ((h.single name).mp rfl)) rfl
    | multi name => exact Denotes.ne_line (denotes_multi_iff.mpr ((h.multi name).mp rfl)) rfl
  · intro h
    have hread : ∀ segment, segment.captureName?.isSome = true →
        (ofPart part = segment ↔ Denotes part segment) := fun segment hcapture => by
      rw [ofPart_eq_capture_iff hcapture, or_iff_left]
      rintro ⟨whole, hwhole, rfl⟩
      exact h whole segment hwhole rfl
    refine ⟨fun name => ?_, fun name => ?_, fun hother => ?_⟩
    · rw [hread _ rfl, denotes_multi_iff]
    · rw [hread _ rfl, denotes_single_iff]
    · obtain hliteral | ⟨name, hname, hsingle | hmulti⟩ := ofPart_cases part
      · exact hliteral
      · obtain ⟨-, hbare | hone⟩ := denotes_single_iff.mp ((hread _ rfl).mp hsingle)
        · exact absurd hbare (hother name hname).1
        · exact absurd hone (hother name hname).2.1
      · obtain ⟨-, hmany⟩ := denotes_multi_iff.mp ((hread _ rfl).mp hmulti)
        exact absurd hmany (hother name hname).2.2

end Segment

/-! ## Reading a part -/

open Eval Segment

theorem on_parseSegment (call : Caller) (part : Text) (s : Session) :
    (callBuiltin call .parseSegment [.text part] []).on s = (allocate (ofPart part).cell).on s := by
  have hbind : Builtin.parseSegment.signature.bind [.text part] [] =
      .ok ⟨[("part", .text part)], [], []⟩ := rfl
  have hpart : (Arguments.mk [("part", .text part)] [] []).get "part" = .text part := rfl
  simp only [callBuiltin, Builtin.receivesObject, Builtin.isConstructor, Bool.false_eq_true, if_false,
    List.nil_append, hbind, on_bind, on_ofExcept, next_ok, runBuiltin, hpart, matchable, on_pure]
  cases ofPart part <;> rfl

/-- Reading a part never fails. What it gives is the capture that the whole part is written as, or
else a literal of the part, exactly if the part is not a capture with a line break behind it. Such a
part is taken for the capture. -/
theorem parseSegment_exact_iff (call : Caller) (part : Text) (s : Session) :
    ∃ v t segment, (callBuiltin call .parseSegment [.text part] []).on s = (.ok v, t) ∧
      t.heap.cell? v = some (Segment.cell segment) ∧
      (IsExact part segment ↔ ∀ whole capture, Denotes whole capture → part ≠ whole ++ "\n") ∧
      ∀ whole capture, Denotes whole capture → part = whole ++ "\n" → segment = capture := by
  refine ⟨_, _, ofPart part, on_parseSegment call part s, Heap.cell?_allocate_new _ _,
    isExact_ofPart_iff, ?_⟩
  rintro whole capture h rfl
  exact ofPart_of_line h

theorem ofPart_line_not_exact :
    ¬ IsExact "\x7ba\x7d\n" (ofPart "\x7ba\x7d\n") := by
  rw [isExact_ofPart_iff]
  intro h
  have hname : IsName "a" := ⟨by decide, by decide⟩
  exact h _ _ (.bare hname) rfl

end FunctionManifest
