import FunctionManifest.Proofs.Path.Extracting

/-!
# Filling a template

A path fills a template if each segment is replaced by a part of its own, and the first segment that
may span several parts by one or more of them. Matching such a path against the template gives every
capture the parts that replaced it.
-/

namespace FunctionManifest

/-! ## Fillings -/

/-- Each segment with the parts that replace it. Until a segment that may span several parts was
met, such a segment is replaced by one or more; all others are replaced by one. -/
inductive Filling : (divided : Bool) → List (Segment × List Text) → Prop
  | nil {divided : Bool} : Filling divided []
  | one {divided : Bool} {segment : Segment} {part : Text} {rest : List (Segment × List Text)}
      (h : divided = true ∨ segment.spansMany = false) (hpart : IsPart part)
      (hrest : Filling divided rest) : Filling divided ((segment, [part]) :: rest)
  | many {segment : Segment} {parts : List Text} {rest : List (Segment × List Text)}
      (h : segment.spansMany = true) (hne : parts ≠ []) (hparts : ∀ part ∈ parts, IsPart part)
      (hrest : Filling true rest) : Filling false ((segment, parts) :: rest)

namespace Filling

variable {divided : Bool} {filling : List (Segment × List Text)}

theorem isPart (h : Filling divided filling) :
    ∀ part ∈ filling.flatMap Prod.snd, IsPart part := by
  induction h with
  | nil => simp
  | one _ hpart _ ih =>
    rw [List.flatMap_cons]
    exact List.forall_mem_cons.mpr ⟨hpart, ih⟩
  | many _ _ hparts _ ih =>
    intro part hpart
    rw [List.flatMap_cons, List.mem_append] at hpart
    exact hpart.elim (hparts part) (ih part)

/-- Behind the dividing segment each segment has one part. -/
theorem single (h : Filling true filling) : ∀ block ∈ filling, ∃ part, block.2 = [part] := by
  generalize hdivided : true = divided at h
  induction h with
  | nil => simp
  | one _ _ _ ih => simpa using ih hdivided
  | many => cases hdivided

/-- Either no segment divides, or one does and what is before and behind it has one part each. -/
theorem cases (h : Filling false filling) :
    (∀ block ∈ filling, block.1.spansMany = false ∧ ∃ part, block.2 = [part]) ∨
    ∃ head segment parts tail, filling = head ++ (segment, parts) :: tail ∧
      (∀ block ∈ head, block.1.spansMany = false ∧ ∃ part, block.2 = [part]) ∧
      segment.spansMany = true ∧ parts ≠ [] ∧ ∀ block ∈ tail, ∃ part, block.2 = [part] := by
  generalize hdivided : false = divided at h
  induction h with
  | nil => exact .inl (by simp)
  | @one divided segment part rest hspans hpart hrest ih =>
    subst hdivided
    have hfirst : segment.spansMany = false ∧ ∃ p, [part] = [p] :=
      ⟨hspans.resolve_left nofun, part, rfl⟩
    obtain hall | ⟨head, divider, parts, tail, rfl, hhead, hdivider⟩ := ih rfl
    · exact .inl (List.forall_mem_cons.mpr ⟨hfirst, hall⟩)
    · exact .inr ⟨(segment, [part]) :: head, divider, parts, tail, rfl,
        List.forall_mem_cons.mpr ⟨hfirst, hhead⟩, hdivider⟩
  | @many segment parts rest hspans hne _ hrest _ =>
    exact .inr ⟨[], segment, parts, rest, rfl, by simp, hspans, hne, hrest.single⟩

end Filling

namespace Pattern

/-! ## Blocks -/

/-- Segments of one part each are paired with these parts. -/
theorem oneEach_of_single {blocks : List (Segment × List Text)}
    (h : ∀ block ∈ blocks, ∃ part, block.2 = [part]) :
    oneEach (blocks.map Prod.fst) (blocks.flatMap Prod.snd) = blocks := by
  induction blocks with
  | nil => rfl
  | cons block rest ih =>
    obtain ⟨part, hpart⟩ := h block List.mem_cons_self
    have hrest := ih fun other hother => h other (List.mem_cons_of_mem _ hother)
    obtain ⟨segment, parts⟩ := block
    subst hpart
    simpa [oneEach] using hrest

theorem length_flatMap_of_single {blocks : List (Segment × List Text)}
    (h : ∀ block ∈ blocks, ∃ part, block.2 = [part]) :
    (blocks.flatMap Prod.snd).length = blocks.length := by
  induction blocks with
  | nil => rfl
  | cons block rest ih =>
    obtain ⟨part, hpart⟩ := h block List.mem_cons_self
    have hrest := ih fun other hother => h other (List.mem_cons_of_mem _ hother)
    simp only [List.flatMap_cons, List.length_append, hpart, List.length_cons, hrest,
      List.length_nil]
    omega

/-- Pairing stops where there are no segments left. -/
theorem oneEach_append (segments : List Segment) {parts : List Text} (more : List Text)
    (h : segments.length = parts.length) :
    oneEach segments (parts ++ more) = oneEach segments parts := by
  have hzip : (segments ++ []).zip (parts ++ more) = segments.zip parts ++ [].zip more :=
    List.zip_append h
  rw [List.append_nil, List.zip_nil_left, List.append_nil] at hzip
  rw [oneEach, oneEach, hzip]

/-- Without a dividing segment, and around it, parts are paired with segments one by one; what is
left between them belongs to the dividing segment. -/
theorem blocks_filling {pattern : Pattern} {filling : List (Segment × List Text)}
    (hsegments : filling.map Prod.fst = pattern.segments) (h : Filling false filling) :
    pattern.blocks (filling.flatMap Prod.snd) = filling := by
  rw [blocks, divider?_eq_findIdx?, ← hsegments]
  obtain hall | ⟨head, segment, parts, tail, rfl, hhead, hspans, hne, htail⟩ := h.cases
  · have hnone : (filling.map Prod.fst).findIdx? Segment.spansMany = none := by
      simp only [List.findIdx?_eq_none_iff, List.mem_map]
      rintro _ ⟨block, hblock, rfl⟩
      exact (hall block hblock).1
    rw [hnone]
    exact oneEach_of_single fun block hblock => (hall block hblock).2
  · have hsome : ((head ++ (segment, parts) :: tail).map Prod.fst).findIdx? Segment.spansMany =
        some head.length := by
      have hnone : (head.map Prod.fst).findIdx? Segment.spansMany = none := by
        simp only [List.findIdx?_eq_none_iff, List.mem_map]
        rintro _ ⟨block, hblock, rfl⟩
        exact (hhead block hblock).1
      rw [List.map_append, List.findIdx?_append, hnone, List.map_cons, List.findIdx?_cons, hspans]
      simp
    have hhead := fun block hblock => (hhead block hblock).2
    have hheadLength := length_flatMap_of_single hhead
    have htailLength := length_flatMap_of_single htail
    have hparts : (head ++ (segment, parts) :: tail).flatMap Prod.snd =
        head.flatMap Prod.snd ++ (parts ++ tail.flatMap Prod.snd) := by simp
    have htake : ((head ++ (segment, parts) :: tail).map Prod.fst).take head.length =
        head.map Prod.fst := by simp
    have hdrop : ((head ++ (segment, parts) :: tail).map Prod.fst).drop head.length =
        segment :: tail.map Prod.fst := by simp
    have hrest : (head.flatMap Prod.snd ++ (parts ++ tail.flatMap Prod.snd)).drop head.length =
        parts ++ tail.flatMap Prod.snd := List.drop_left' hheadLength
    have hover : (parts ++ tail.flatMap Prod.snd).length - (tail.map Prod.fst).length =
        parts.length := by simp [htailLength]
    have hnone : (tail.map Prod.fst).length - (parts ++ tail.flatMap Prod.snd).length = 0 := by
      simp [htailLength]
    have htailDrop : ((head ++ (segment, parts) :: tail).map Prod.fst).drop (head.length + 1) =
        tail.map Prod.fst := by
      rw [← List.drop_drop, hdrop]
      rfl
    rw [hsome, hparts]
    simp only [htake, hdrop, htailDrop, hrest, hover, hnone, List.drop_zero, List.take_left,
      List.drop_left, if_neg hne, oneEach_append _ _ (hheadLength.symm ▸ List.length_map _),
      oneEach_of_single hhead, oneEach_of_single htail]
    simp

/-! ## Matches -/

/-- What a capture is to be bound to: its own part, or all the parts that replaced it. -/
def boundTo? : Segment × List Text → Option (Text × Text)
  | (.single name, [part]) => some (name, part)
  | (.multi name, parts) => some (name, Text.join "/" parts)
  | _ => none

theorem binding?_eq_boundTo? {divided : Bool} {filling : List (Segment × List Text)}
    (h : Filling divided filling) : ∀ block ∈ filling, binding? block = boundTo? block := by
  have hone : ∀ segment part, binding? (segment, [part]) = boundTo? (segment, [part]) := by
    intro segment part
    cases segment <;> simp [binding?, boundTo?, Segment.captureName?, Text.join]
  induction h with
  | nil => simp
  | one _ _ _ ih => exact List.forall_mem_cons.mpr ⟨hone _ _, ih⟩
  | @many segment parts rest hspans _ _ _ ih =>
    refine List.forall_mem_cons.mpr ⟨?_, ih⟩
    cases segment with
    | single name => cases hspans
    | literal text => cases parts <;> rfl
    | multi name => rfl

/-- The names that are bound are those of the captures. -/
theorem map_fst_bindings (blocks : List (Segment × List Text)) :
    (blocks.filterMap binding?).map Prod.fst =
      (blocks.map Prod.fst).filterMap Segment.captureName? := by
  rw [List.map_filterMap, List.filterMap_map]
  refine List.filterMap_congr fun block _ => ?_
  simp only [binding?, Function.comp_apply, Option.map_map]
  cases block.1.captureName? <;> rfl

/-- What fills a template, as the path of its parts with slashes around them. -/
def pathOf (filling : List (Segment × List Text)) (before after : Nat) : Text :=
  List.replicate before (.char '/') ++ Text.join "/" (filling.flatMap Prod.snd) ++
    List.replicate after (.char '/')

section

variable {pattern : Pattern} {filling : List (Segment × List Text)}

theorem extractMatches_pathOf (hnames : pattern.captureNames.Nodup)
    (hsegments : filling.map Prod.fst = pattern.segments) (hfilling : Filling false filling)
    (before after : Nat) :
    pattern.extractMatches (pathOf filling before after) = filling.filterMap boundTo? ∧
      (filling.filterMap boundTo?).map Prod.fst = pattern.captureNames := by
  have hkeys : (filling.filterMap binding?).map Prod.fst = pattern.captureNames := by
    rw [map_fst_bindings, hsegments, captureNames]
  rw [← List.filterMap_congr (binding?_eq_boundTo? hfilling), pathOf, extractMatches,
    splitPath_surrounded (areParts_of_isPart hfilling.isPart), blocks_filling hsegments hfilling]
  exact ⟨Assoc.setAll_nil_of_nodup (hkeys ▸ hnames), hkeys⟩

theorem on_matchesOf_pathOf (hnames : pattern.captureNames.Nodup)
    (hsegments : filling.map Prod.fst = pattern.segments) (hfilling : Filling false filling)
    (before after : Nat) (call : Caller) (s : Session) :
    (matchesOf call pattern (.text (pathOf filling before after))).on s =
      (Eval.intern (.named ((filling.filterMap boundTo?).map fun bound =>
        (bound.1, .text bound.2)))).on s := by
  rw [on_matchesOf_text, (extractMatches_pathOf hnames hsegments hfilling before after).1]

end

/-- Matching a path that fills a template binds the captures and nothing else: a capture of one
segment to the part that replaced it, and the dividing one to its parts, joined. What replaces a
literal does not matter. -/
theorem extractMatches_filling (pattern : Pattern) (hnames : pattern.captureNames.Nodup)
    (filling : List (Segment × List Text)) (hsegments : filling.map Prod.fst = pattern.segments)
    (hfilling : Filling false filling) (before after : Nat) :
    pattern.extractMatches (pathOf filling before after) = filling.filterMap boundTo? ∧
      (filling.filterMap boundTo?).map Prod.fst = pattern.captureNames ∧
      ∀ call s, (matchesOf call pattern (.text (pathOf filling before after))).on s =
        (Eval.intern (.named ((filling.filterMap boundTo?).map fun bound =>
          (bound.1, .text bound.2)))).on s := by
  obtain ⟨hmatches, hkeys⟩ := extractMatches_pathOf hnames hsegments hfilling before after
  exact ⟨hmatches, hkeys, on_matchesOf_pathOf hnames hsegments hfilling before after⟩

/-- A later segment that could span parts is a literal, and a literal need not be met. -/
theorem extractMatches_filling_later :
    (Pattern.mk "/a/\x7bfirst\x7d/\x7brest=**\x7d/**/\x7blast=*\x7d/\x7bx=**\x7d").extractMatches
        "//b/1/x/y/z/2/w/" =
      [(Text.ofString "first", Text.ofString "1"), ("rest", "x/y"), ("last", "2")] := by
  let filling : List (Segment × List Text) :=
    [(.literal "a", ["b"]), (.single "first", ["1"]), (.multi "rest", ["x", "y"]),
      (.literal "**", ["z"]), (.single "last", ["2"]), (.literal "\x7bx=**\x7d", ["w"])]
  have hpart : ∀ c : Char, c ≠ '/' → IsPart [.char c] := fun c hc => by
    simpa [IsPart] using Ne.symm hc
  have hfilling : Filling false filling := by
    refine .one (.inr rfl) (hpart _ (by decide)) ?_
    refine .one (.inr rfl) (hpart _ (by decide)) ?_
    refine .many rfl (by simp) ?_ ?_
    · simpa using ⟨hpart _ (by decide), hpart _ (by decide)⟩
    · refine .one (.inl rfl) (hpart _ (by decide)) ?_
      refine .one (.inl rfl) (hpart _ (by decide)) ?_
      exact .one (.inl rfl) (hpart _ (by decide)) .nil
  exact (extractMatches_filling ⟨_⟩ (by decide) filling (by decide) hfilling 2 1).1

end Pattern

end FunctionManifest
