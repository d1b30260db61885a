import FunctionManifest.Language.Operation
import FunctionManifest.Proofs.Path.Alignment
import FunctionManifest.Proofs.Session.Making

/-!
# Extracting matches

The captures of a template are bound in three loops, one for the segments before the dividing one,
one for what it spans and one for the segments behind it. No loop looks for a part that is not
there, on short paths neither.
-/

namespace FunctionManifest.Pattern

/-! ## The loops -/

/-- A part at a place that may lie outside the path. -/
def partAt? (parts : List Text) (place : Int) : Option Text :=
  if 0 ≤ place then parts[place.toNat]? else none

/-- Only captures of one part look for their part. -/
def bindPart? (bound : List (Text × Text)) (segment : Segment) (part? : Option Text) :
    Option (List (Text × Text)) :=
  match segment with
  | .single name => part?.map (Assoc.set bound name)
  | _ => some bound

def bindEach? (bound : List (Text × Text)) (segments : List Segment) (parts : List Text) :
    Option (List (Text × Text)) :=
  (segments.zip parts).foldlM (fun bound pair => bindPart? bound pair.1 (some pair.2)) bound

/-- A capture of several parts is bound if the segments behind it leave some. -/
def bindAcross (parts : List Text) (k : Nat) (tailStart : Int) (bound : List (Text × Text)) :
    Segment → List (Text × Text)
  | .multi name =>
    if k < tailStart then
      Assoc.set bound name (Text.join "/" (parts.extract k tailStart.toNat))
    else bound
  | _ => bound

/-- A segment behind the dividing one, with its offset there. -/
def bindBehind? (parts : List Text) (k : Nat) (tailStart : Int) (bound : List (Text × Text))
    (behind : Segment × Nat) : Option (List (Text × Text)) :=
  let place := tailStart + behind.2
  if place < k then some bound else bindPart? bound behind.1 (partAt? parts place)

/-- The captures bound by the parts of a path, or nothing if a part was looked for that the path
does not have. -/
def bindAll? (pattern : Pattern) (parts : List Text) : Option (List (Text × Text)) :=
  match pattern.divider? with
  | none => bindEach? [] pattern.segments parts
  | some k => do
    let tail := pattern.segments.drop (k + 1)
    let tailStart : Int := parts.length - tail.length
    let bound ← bindEach? [] (pattern.segments.take k) parts
    let bound := bindAcross parts k tailStart bound (← pattern.segments[k]?)
    tail.zipIdx.foldlM (bindBehind? parts k tailStart) bound

variable {pattern : Pattern} {parts : List Text}

/-! ## No failure -/

theorem bindPart?_eq {segment : Segment} (h : ∀ name, segment ≠ .multi name)
    (bound : List (Text × Text)) (part : Text) :
    bindPart? bound segment (some part) =
      some (Assoc.setAll bound (binding? (segment, [part])).toList) := by
  cases segment with
  | literal text => rfl
  | single name => simp [bindPart?, binding?, Segment.captureName?, Text.join, Assoc.setAll]
  | multi name => exact absurd rfl (h name)

theorem bindEach?_eq {segments : List Segment} (h : ∀ segment ∈ segments, ∀ name, segment ≠ .multi name)
    (bound : List (Text × Text)) (parts : List Text) :
    bindEach? bound segments parts =
      some (Assoc.setAll bound ((oneEach segments parts).filterMap binding?)) := by
  rw [oneEach, List.filterMap_map]
  refine Assoc.foldlM_eq_setAll (fun pair hpair bound => ?_) bound
  exact bindPart?_eq (h pair.1 (List.of_mem_zip hpair).1) bound pair.2

/-- What a segment binds by the parts that it is aligned with. -/
def bindingAt? (pattern : Pattern) (parts : List Text) (placed : Segment × Nat) :
    Option (Text × Text) :=
  placed.1.captureName?.bind fun name => (pattern.range? parts.length placed.2).map fun range =>
    (name, Text.join "/" (parts.extract range.1 range.2))

theorem bindingAt?_of_some {place start stop : Nat}
    (h : pattern.range? parts.length place = some (start, stop)) (segment : Segment) :
    pattern.bindingAt? parts (segment, place) = binding? (segment, parts.extract start stop) := by
  rw [bindingAt?, h, binding?, Option.map_eq_bind]
  rfl

theorem bindingAt?_of_none {place : Nat} (h : pattern.range? parts.length place = none)
    (segment : Segment) : pattern.bindingAt? parts (segment, place) = none := by
  rw [bindingAt?, h]
  exact Option.bind_fun_none _

theorem bind_blockAt? (placed : Segment × Nat) :
    (pattern.blockAt? parts placed).bind binding? = pattern.bindingAt? parts placed := by
  obtain ⟨segment, place⟩ := placed
  cases hrange : pattern.range? parts.length place with
  | none =>
    rw [bindingAt?_of_none hrange, blockAt?, hrange]
    rfl
  | some range =>
    rw [bindingAt?_of_some hrange, blockAt?, hrange]
    rfl

theorem filterMap_blockAt? (placed : List (Segment × Nat)) :
    (placed.filterMap (pattern.blockAt? parts)).filterMap binding? =
      placed.filterMap (pattern.bindingAt? parts) := by
  rw [List.filterMap_filterMap]
  exact List.filterMap_congr fun one _ => bind_blockAt? one

section

variable {k : Nat} (hk : pattern.divider? = some k)

include hk

theorem bindAcross_eq {segment : Segment} (hsegment : pattern.segments[k]? = some segment)
    (bound : List (Text × Text)) :
    bindAcross parts k (parts.length - (pattern.segments.drop (k + 1)).length : Int) bound segment =
      Assoc.setAll bound (pattern.bindingAt? parts (segment, k)).toList := by
  have hklt := divider_lt hk
  have hspans : segment.spansMany = true := by
    have hfirst := (List.findIdx?_eq_some_iff_getElem.mp (divider?_eq_findIdx? pattern ▸ hk)).2.1
    rw [List.getElem?_eq_getElem hklt, Option.some.injEq] at hsegment
    rwa [hsegment] at hfirst
  rw [List.length_drop]
  cases segment with
  | single name => cases hspans
  | literal text => rfl
  | multi name =>
    by_cases hroom : pattern.segments.length ≤ parts.length
    · have hsome : (k : Int) < parts.length - ((pattern.segments.length - (k + 1) : Nat) : Int) := by
        omega
      have hstop : (parts.length - ((pattern.segments.length - (k + 1) : Nat) : Int)).toNat =
          parts.length + 1 - (pattern.segments.length - k) := by omega
      have hrange : pattern.range? parts.length k = _ := range?_across hk
      rw [if_pos hroom] at hrange
      rw [bindingAt?_of_some hrange, bindAcross, if_pos hsome, hstop]
      rfl
    · have hnone : ¬ (k : Int) < parts.length - ((pattern.segments.length - (k + 1) : Nat) : Int) := by
        omega
      have hrange : pattern.range? parts.length k = _ := range?_across hk
      rw [if_neg hroom] at hrange
      rw [bindingAt?_of_none hrange, bindAcross, if_neg hnone]
      rfl

theorem bindBehind?_eq {segment : Segment} {offset : Nat}
    (hsegment : pattern.segments[k + 1 + offset]? = some segment) (bound : List (Text × Text)) :
    bindBehind? parts k (parts.length - (pattern.segments.drop (k + 1)).length : Int) bound
        (segment, offset) =
      some (Assoc.setAll bound (pattern.bindingAt? parts (segment, k + 1 + offset)).toList) := by
  obtain ⟨hlt, -⟩ := List.getElem?_eq_some_iff.mp hsegment
  have hsingle : ∀ name, segment ≠ .multi name := by
    rintro name rfl
    have hsame := hk.symm.trans (pattern.isSound_compiled.multi _ name hsegment)
    rw [Option.some.injEq] at hsame
    omega
  rw [List.length_drop]
  have hbehind : k < k + 1 + offset := by omega
  have hrange : pattern.range? parts.length (k + 1 + offset) = _ := range?_behind hk hbehind
  unfold bindBehind?
  simp only
  split
  · have hroom : ¬ k + (pattern.segments.length - (k + 1 + offset)) ≤ parts.length := by omega
    rw [if_neg hroom] at hrange
    rw [bindingAt?_of_none hrange]
    rfl
  · have hroom : k + (pattern.segments.length - (k + 1 + offset)) ≤ parts.length := by omega
    rw [if_pos hroom] at hrange
    generalize hpart : parts.length - (pattern.segments.length - (k + 1 + offset)) = part at hrange
    have hin : part < parts.length := by omega
    have hplace : parts.length - ((pattern.segments.length - (k + 1) : Nat) : Int) + offset =
        (part : Int) := by omega
    have hstop : parts.length + 1 - (pattern.segments.length - (k + 1 + offset)) = part + 1 := by
      omega
    have hfound : partAt? parts part = some parts[part] := by simp [partAt?, hin]
    rw [hplace, hfound, bindPart?_eq hsingle, bindingAt?_of_some hrange, hstop, extract_one hin]

end

/-- Every part that a loop looks for is there. -/
theorem bindAll?_eq (pattern : Pattern) (parts : List Text) :
    pattern.bindAll? parts =
      some (Assoc.ofList ((pattern.blocks parts).filterMap binding?)) := by
  have hmulti := pattern.isSound_compiled.multi
  unfold bindAll?
  cases hdivider : pattern.divider? with
  | none =>
    have hsingle : ∀ segment ∈ pattern.segments, ∀ name, segment ≠ .multi name := by
      rintro segment hsegment name rfl
      obtain ⟨place, hplace⟩ := List.getElem?_of_mem hsegment
      cases hdivider.symm.trans (hmulti place name hplace)
    simp only [bindEach?_eq hsingle, blocks, hdivider]
    rfl
  | some k =>
    have hklt := divider_lt hdivider
    have hsegment : pattern.segments[k]? = some pattern.segments[k] := List.getElem?_eq_getElem hklt
    have hsingle : ∀ segment ∈ pattern.segments.take k, ∀ name, segment ≠ .multi name := by
      rintro segment hin name rfl
      obtain ⟨place, hplace⟩ := List.getElem?_of_mem hin
      rw [List.getElem?_take, Option.ite_none_right_eq_some] at hplace
      have hsame := hdivider.symm.trans (hmulti place name hplace.2)
      rw [Option.some.injEq] at hsame
      omega
    have htail : ∀ behind ∈ (pattern.segments.drop (k + 1)).zipIdx, ∀ bound,
        bindBehind? parts k (parts.length - (pattern.segments.drop (k + 1)).length : Int) bound
            behind =
          some (Assoc.setAll bound
            (pattern.bindingAt? parts (behind.1, k + 1 + behind.2)).toList) := by
      rintro ⟨segment, offset⟩ hbehind bound
      have hget := List.mem_zipIdx_iff_getElem?.mp hbehind
      rw [List.getElem?_drop] at hget
      exact bindBehind?_eq hdivider hget bound
    have hplaces : (pattern.segments.drop (k + 1)).zipIdx (k + 1) =
        (pattern.segments.drop (k + 1)).zipIdx.map fun behind => (behind.1, k + 1 + behind.2) := by
      exact List.zipIdx_eq_map_add
    simp only [bindEach?_eq hsingle, hsegment, Option.bind_eq_bind, Option.bind_some,
      bindAcross_eq hdivider hsegment, Assoc.foldlM_eq_setAll htail]
    -- Three loops in a row bind what the blocks bind in one.
    have hmiddle : (pattern.blockAt? parts (pattern.segments[k], k)).toList.filterMap binding? =
        (pattern.bindingAt? parts (pattern.segments[k], k)).toList := by
      rw [← bind_blockAt?]
      cases pattern.blockAt? parts (pattern.segments[k], k) with
      | none => rfl
      | some block => cases hbinding : binding? block <;> simp [hbinding]
    rw [blocks_of_divider hdivider, List.filterMap_append, List.filterMap_append,
      filterMap_blockAt?, hplaces, List.filterMap_map, Assoc.ofList, Assoc.setAll_append,
      Assoc.setAll_append]
    exact congrArg some (congrArg (Assoc.setAll · _) (congrArg (Assoc.setAll _) hmiddle.symm))

/-! ## Aligned captures -/

/-- The segment at a place is a capture with the name. -/
def CapturesAt (pattern : Pattern) (name : Text) (place : Nat) : Prop :=
  ∃ segment, pattern.segments[place]? = some segment ∧ segment.captureName? = some name

theorem bindingAt?_eq_some_iff {segment : Segment} {place : Nat}
    (hsegment : pattern.segments[place]? = some segment) {name value : Text} :
    pattern.bindingAt? parts (segment, place) = some (name, value) ↔
      pattern.CapturesAt name place ∧ ∃ start stop, pattern.Aligned parts.length place start stop ∧
        value = Text.join "/" (parts.extract start stop) := by
  have hplace := (List.getElem?_eq_some_iff.mp hsegment).1
  have hcaptures : pattern.CapturesAt name place ↔ segment.captureName? = some name := by
    simp [CapturesAt, hsegment]
  simp only [hcaptures, aligned_iff, hplace, true_and]
  cases hrange : pattern.range? parts.length place with
  | none => simp [bindingAt?_of_none hrange]
  | some range =>
    obtain ⟨start, stop⟩ := range
    rw [bindingAt?_of_some hrange, binding?, Option.map_eq_some_iff]
    simp only [Prod.mk.injEq, Option.some.injEq]
    constructor
    · rintro ⟨_, hname, rfl, rfl⟩
      exact ⟨hname, start, stop, ⟨rfl, rfl⟩, rfl⟩
    · rintro ⟨hname, _, _, ⟨rfl, rfl⟩, rfl⟩
      exact ⟨name, hname, rfl, rfl⟩

variable {path name : Text}

theorem extractMatches_eq (pattern : Pattern) (path : Text) :
    pattern.extractMatches path =
      Assoc.ofList (pattern.segments.zipIdx.filterMap (pattern.bindingAt? (splitPath path))) := by
  rw [extractMatches, blocks_eq_filterMap, filterMap_blockAt?]

/-- The last aligned capture with a name gives its value. -/
theorem get?_extractMatches {value : Text} :
    Assoc.get? (pattern.extractMatches path) name = some value ↔
      ∃ place start stop, pattern.CapturesAt name place ∧
        pattern.Aligned (splitPath path).length place start stop ∧
        value = Text.join "/" ((splitPath path).extract start stop) ∧
        ∀ later start' stop', place < later → pattern.CapturesAt name later →
          ¬ pattern.Aligned (splitPath path).length later start' stop' := by
  rw [extractMatches_eq, Assoc.get?_ofList_filterMap_zipIdx]
  constructor
  · rintro ⟨place, segment, hsegment, hbinding, hlast⟩
    obtain ⟨hcaptures, start, stop, haligned, hvalue⟩ :=
      (bindingAt?_eq_some_iff hsegment).mp hbinding
    refine ⟨place, start, stop, hcaptures, haligned, hvalue, ?_⟩
    rintro later start' stop' hlt ⟨other, hother, hname⟩ hlater
    exact hlast later other hlt hother _
      ((bindingAt?_eq_some_iff hother).mpr ⟨⟨other, hother, hname⟩, start', stop', hlater, rfl⟩)
  · rintro ⟨place, start, stop, ⟨segment, hsegment, hname⟩, haligned, hvalue, hlast⟩
    refine ⟨place, segment, hsegment, (bindingAt?_eq_some_iff hsegment).mpr
      ⟨⟨segment, hsegment, hname⟩, start, stop, haligned, hvalue⟩, ?_⟩
    intro later other hlt hother w hbinding
    obtain ⟨hcaptures, start', stop', hlater, -⟩ := (bindingAt?_eq_some_iff hother).mp hbinding
    exact hlast later start' stop' hlt hcaptures hlater

theorem contains_extractMatches :
    Assoc.contains (pattern.extractMatches path) name = true ↔
      ∃ place start stop, pattern.CapturesAt name place ∧
        pattern.Aligned (splitPath path).length place start stop := by
  rw [extractMatches_eq, Assoc.ofList, Assoc.contains_setAll, Bool.or_eq_true, Assoc.contains_iff,
    Assoc.contains_iff]
  simp only [List.not_mem_nil, exists_false, false_or, List.mem_filterMap]
  constructor
  · rintro ⟨value, ⟨segment, place⟩, hplaced, hbinding⟩
    have hsegment := List.mem_zipIdx_iff_getElem?.mp hplaced
    obtain ⟨hcaptures, start, stop, haligned, -⟩ := (bindingAt?_eq_some_iff hsegment).mp hbinding
    exact ⟨place, start, stop, hcaptures, haligned⟩
  · rintro ⟨place, start, stop, ⟨segment, hsegment, hname⟩, haligned⟩
    exact ⟨_, (segment, place), List.mem_zipIdx_iff_getElem?.mpr hsegment,
      (bindingAt?_eq_some_iff hsegment).mpr
        ⟨⟨segment, hsegment, hname⟩, start, stop, haligned, rfl⟩⟩

/-! ## Asking a pattern -/

theorem extractMatches_of_not_hasCaptures (h : pattern.hasCaptures = false) :
    pattern.extractMatches path = [] := by
  have hnone : pattern.segments.zipIdx.filterMap (pattern.bindingAt? (splitPath path)) = [] := by
    refine List.filterMap_eq_nil_iff.mpr fun placed hplaced => ?_
    have hplain := List.any_eq_false.mp h placed.1 (List.fst_mem_of_mem_zipIdx hplaced)
    rw [bindingAt?, Option.not_isSome_iff_eq_none.mp hplain]
    rfl
  rw [extractMatches_eq, hnone]
  rfl

theorem on_mapM_matchable (parts : List Text) (s : Session) :
    ((parts.map Value.text).mapM matchable).on s = (.ok parts, s) := by
  induction parts with
  | nil => rfl
  | cons part rest ih =>
    rw [List.map_cons, List.mapM_cons]
    simp only [matchable, Eval.on_bind, Eval.on_pure, Eval.next_ok, ih]

/-- The bindings are given as a new mapping. A path is not split otherwise when it was split and
joined before. -/
theorem on_matchesOf_text (call : Caller) (pattern : Pattern) (path : Text) (s : Session) :
    (matchesOf call pattern (.text path)).on s =
      (Eval.intern (.named ((pattern.extractMatches path).map fun bound =>
        (bound.1, .text bound.2)))).on s := by
  cases hcaptures : pattern.hasCaptures with
  | true =>
    have hagain : pattern.extractMatches (Text.join "/" (splitPath path)) =
        pattern.extractMatches path := by
      rw [extractMatches, splitPath_join_splitPath, extractMatches]
    simp only [matchesOf, hcaptures, if_true, partsOf, Eval.on_bind, Eval.on_pure, Eval.next_ok,
      on_mapM_matchable, hagain]
  | false =>
    simp [matchesOf, hcaptures, extractMatches_of_not_hasCaptures hcaptures, Value.named]

theorem matchesOf_returns (call : Caller) (pattern : Pattern) (path : Text) (s : Session) :
    ∃ v t, (matchesOf call pattern (.text path)).on s = (.ok v, t) ∧
      t.heap.cell? v = some (.mapping
        ((pattern.extractMatches path).map fun bound => (.text bound.1, .text bound.2))) := by
  have hkept : ∀ entry ∈ (pattern.extractMatches path).map fun bound =>
      (Value.text bound.1, Value.text bound.2), entry.1.IsKept ∧ entry.2.IsKept := by
    intro entry hentry
    obtain ⟨bound, -, rfl⟩ := List.mem_map.mp hentry
    exact ⟨Value.isKept_text _, Value.isKept_text _⟩
  have hrun := on_matchesOf_text call pattern path s
  rw [Value.named, List.map_map, Eval.on_intern] at hrun
  have hmade := Eval.makes_intern_mapping hkept s _ _ (Heap.Extends.refl _) (Eval.on_intern _ s)
  exact ⟨_, _, hrun, hmade.2⟩

/-- Extracting the matches of a path never fails, and looks for no part that is not there. Each
segment is aligned with one block of parts at most, and later segments with later blocks. The names
that are bound are those of aligned captures, each to the block of the last capture with the name. -/
theorem extractMatches_aligned (pattern : Pattern) (path : Text) :
    (∀ call s, ∃ v t, (matchesOf call pattern (.text path)).on s = (.ok v, t) ∧
      t.heap.cell? v = some (.mapping
        ((pattern.extractMatches path).map fun bound => (.text bound.1, .text bound.2)))) ∧
    pattern.bindAll? (splitPath path) = some (pattern.extractMatches path) ∧
    (∀ place start stop, pattern.Aligned (splitPath path).length place start stop →
      start < stop ∧ stop ≤ (splitPath path).length ∧
      (∀ start' stop', pattern.Aligned (splitPath path).length place start' stop' →
        start = start' ∧ stop = stop') ∧
      ∀ later start' stop', place < later →
        pattern.Aligned (splitPath path).length later start' stop' → stop ≤ start') ∧
    ((pattern.extractMatches path).map Prod.fst).Nodup ∧
    ∀ name, (name ∈ (pattern.extractMatches path).map Prod.fst ↔
        ∃ place start stop, pattern.CapturesAt name place ∧
          pattern.Aligned (splitPath path).length place start stop) ∧
      ∀ value, Assoc.get? (pattern.extractMatches path) name = some value ↔
        ∃ place start stop, pattern.CapturesAt name place ∧
          pattern.Aligned (splitPath path).length place start stop ∧
          value = Text.join "/" ((splitPath path).extract start stop) ∧
          ∀ later start' stop', place < later → pattern.CapturesAt name later →
            ¬ pattern.Aligned (splitPath path).length later start' stop' := by
  refine ⟨fun call s => matchesOf_returns call pattern path s, bindAll?_eq pattern _, ?_, ?_, ?_⟩
  · intro place start stop haligned
    obtain ⟨hsome, hwithin⟩ := haligned.within
    refine ⟨hsome, hwithin, fun start' stop' h => haligned.unique h, ?_⟩
    intro later start' stop' hlt hlater
    exact haligned.ordered hlater hlt
  · have hnone : (([] : List (Text × Text)).map Prod.fst).Nodup := .nil
    exact Assoc.nodup_keys_setAll hnone _
  · intro name
    rw [← Assoc.contains_eq_true_iff]
    exact ⟨contains_extractMatches, fun value => get?_extractMatches⟩

/-- On a short path the first segments behind the dividing one are left out. -/
example : (Pattern.mk "a/\x7bx\x7d/\x7brest=**\x7d/\x7bx\x7d/\x7by\x7d").extractMatches "/a/1/2" =
    [(Text.ofString "x", Text.ofString "1"), ("y", "2")] := by decide

end FunctionManifest.Pattern
