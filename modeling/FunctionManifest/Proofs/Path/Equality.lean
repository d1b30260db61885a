import FunctionManifest.Language.Call
import FunctionManifest.Proofs.Path.Compiling
import FunctionManifest.Proofs.Session.Lasting
import FunctionManifest.Proofs.Value.Equality

/-!
# Equality of compiled templates

Compiled templates are compared by their segments. Where a path is divided, what it binds and what
the hash is made of follow from the segments too, so equal ones cannot be told apart by matching.
-/

namespace FunctionManifest

namespace Segment

def sort : Segment → SegmentSort
  | .literal _ => .literal
  | .single _ => .single
  | .multi _ => .multi

def content : Segment → Text
  | .literal text | .single text | .multi text => text

/-- A segment as an object. -/
def cell (segment : Segment) : Cell := .segment segment.sort (.text segment.content)

theorem ext_sort {s t : Segment} (hsort : s.sort = t.sort) (hcontent : s.content = t.content) :
    s = t := by
  cases s <;> cases t <;> cases hsort <;> cases hcontent <;> rfl

theorem eq_of_cell {s t : Segment} (h : s.cell = t.cell) : s = t := by
  rw [cell, cell, Cell.segment.injEq, Value.text.injEq] at h
  exact ext_sort h.1 h.2

end Segment

theorem SegmentSort.label_injective {a b : SegmentSort} (h : Text.ofString a.label = b.label) :
    a = b := by
  cases a <;> cases b <;> first | rfl | exact absurd h (by decide)

namespace Heap

variable {heap later : Heap} {v w : Value} {p q : Pattern} {fuel : Nat}

/-- The value is a compiled template, with the segments of the pattern as its segments. -/
def HasPattern (heap : Heap) (v : Value) (p : Pattern) : Prop :=
  ∃ w items, heap.cell? v = some (.pattern p w) ∧ heap.cell? w = some (.tuple items) ∧
    List.Forall₂ (fun item segment => heap.cell? item = some segment.cell) items p.segments

theorem HasPattern.retained (h : heap.HasPattern v p) (hlater : later.Retains heap) :
    later.HasPattern v p := by
  obtain ⟨w, items, hv, hw, hitems⟩ := h
  exact ⟨w, items, hlater _ _ rfl hv, hlater _ _ rfl hw,
    hitems.imp fun _ _ hitem => hlater _ _ rfl hitem⟩

/-! ## Comparing -/

theorem exists_address {cell : Cell} (h : heap.cell? v = some cell) :
    ∃ address, v = .ref address ∧ heap.cells[address]? = some cell := by
  cases v with
  | ref address => exact ⟨address, rfl, h⟩
  | _ => cases h

theorem comparable_tuple {items : List Value} (h : heap.cell? v = some (.tuple items)) :
    heap.comparable v = .parts .tuple items := by
  obtain ⟨address, rfl, hcell⟩ := exists_address h
  simp only [comparable, hcell]

theorem comparable_pattern (h : heap.cell? v = some (.pattern p w)) :
    heap.comparable v = .parts .pattern [w] := by
  obtain ⟨address, rfl, hcell⟩ := exists_address h
  simp only [comparable, hcell]

theorem comparable_segment {segment : Segment} (h : heap.cell? v = some segment.cell) :
    heap.comparable v = .parts (.frozen segment.sort.label) [.text segment.content] := by
  obtain ⟨address, rfl, hcell⟩ := exists_address h
  simp only [comparable, hcell]
  rfl

theorem sameFrom_parts {shape shape' : Shape} {items items' : List Value}
    (hv : heap.comparable v = .parts shape items) (hw : heap.comparable w = .parts shape' items') :
    heap.sameFrom (fuel + 1) v w =
      if shape = shape' && items.length == items'.length then
        sameItems (heap.sameFrom fuel) items items'
      else .ok false := by
  rw [sameFrom, hv, hw]

theorem eq_of_identical {cell : Cell} (h : heap.cell? v = some cell)
    (hone : v.identical w = true) : w = v := by
  obtain ⟨address, rfl, -⟩ := exists_address h
  cases w with
  | ref other => rw [beq_iff_eq.mp hone]
  | _ => cases hone

/-- One object is equal to itself, so only different ones are compared. -/
theorem sameItem_eq {same : Value → Value → Except Failure Bool} {b : Bool}
    (h : same v w = .ok b) (hone : v.identical w = true → b = true) :
    sameItem same v w = .ok b := by
  unfold sameItem
  split
  · rename_i hidentical
    rw [hone hidentical]
  · exact h

theorem sameItems_one {same : Value → Value → Except Failure Bool} {b : Bool}
    (h : sameItem same v w = .ok b) : sameItems same [v] [w] = .ok b := by
  rw [sameItems, h]
  cases b <;> rfl

theorem sameItem_text (s t : Text) :
    sameItem (heap.sameFrom (fuel + 1)) (.text s) (.text t) = .ok (s == t) :=
  sameItem_eq rfl id

theorem sameItem_segment {s t : Segment} (hs : heap.cell? v = some s.cell)
    (ht : heap.cell? w = some t.cell) :
    sameItem (heap.sameFrom (fuel + 2)) v w = .ok (s == t) := by
  -- Objects that are one have one segment, so asking for the identity first changes nothing.
  refine sameItem_eq ?_ fun hone => ?_
  · rw [sameFrom_parts (comparable_segment hs) (comparable_segment ht),
      sameItems_one (sameItem_text s.content t.content)]
    by_cases hsort : s.sort = t.sort
    · have hsame : (s.content == t.content) = (s == t) := by
        rw [Bool.eq_iff_iff, beq_iff_eq, beq_iff_eq]
        exact ⟨Segment.ext_sort hsort, congrArg Segment.content⟩
      simp [hsort, hsame]
    · have hdiffer : (s == t) = false :=
        beq_false_of_ne fun heq => hsort (congrArg Segment.sort heq)
      have hlabel : (Shape.frozen s.sort.label) ≠ .frozen t.sort.label := fun heq =>
        hsort (SegmentSort.label_injective (Shape.frozen.inj heq))
      simp [hlabel, hdiffer]
  · have hcell := ht.symm.trans (eq_of_identical hs hone ▸ hs)
    rw [Option.some.injEq] at hcell
    exact beq_iff_eq.mpr (Segment.eq_of_cell hcell).symm

theorem sameItems_segments {vs ws : List Value} {ss ts : List Segment}
    (hs : List.Forall₂ (fun item segment => heap.cell? item = some segment.cell) vs ss)
    (ht : List.Forall₂ (fun item segment => heap.cell? item = some segment.cell) ws ts) :
    sameItems (heap.sameFrom (fuel + 2)) vs ws = .ok (ss == ts) := by
  induction hs generalizing ws ts with
  | nil => cases ht <;> rfl
  | @cons v s _ ss hv _ ih =>
    cases ht with
    | nil => rfl
    | @cons w t _ ts hw hrest =>
      rw [sameItems, sameItem_segment hv hw, List.cons_beq_cons]
      cases s == t with
      | false => rfl
      | true => exact ih hrest

theorem unique_cell : Relator.RightUnique fun item (segment : Segment) =>
    heap.cell? item = some segment.cell := by
  intro item s t hs ht
  exact Segment.eq_of_cell (Option.some.inj (hs.symm.trans ht))

/-- Compiled templates are equal if their segments are. -/
theorem HasPattern.same_eq (hv : heap.HasPattern v p) (hw : heap.HasPattern w q) :
    heap.same v w = .ok (p.same q) := by
  obtain ⟨x, vs, hv, hx, hvs⟩ := hv
  obtain ⟨y, ws, hw, hy, hws⟩ := hw
  have hsegments : sameItem (heap.sameFrom 999) x y = .ok (p.same q) := by
    refine sameItem_eq ?_ fun hone => ?_
    · rw [sameFrom_parts (comparable_tuple hx) (comparable_tuple hy), sameItems_segments hvs hws]
      by_cases hlength : vs.length = ws.length
      · simp [hlength, Pattern.same]
      · have hdiffer : p.segments ≠ q.segments := fun heq => hlength <| by
          rw [hvs.length_eq, hws.length_eq, heq]
        simp [hlength, Pattern.same, hdiffer]
    · have hcell := hy.symm.trans (eq_of_identical hx hone ▸ hx)
      rw [Option.some.injEq, Cell.tuple.injEq] at hcell
      have hsegments : q.segments = p.segments :=
        List.right_unique_forall₂' unique_cell hws (hcell ▸ hvs)
      rw [Pattern.same, hsegments]
      exact beq_self_eq_true _
  rw [same, depth, sameFrom_parts (comparable_pattern hv) (comparable_pattern hw),
    sameItems_one hsegments]
  rfl

/-! ## Hashing -/

/-- What the hash of a segment is made of. Its sort does not count. -/
def segmentHash (segment : Segment) : Value :=
  .tuple [if segment.content = [] then .int 0 else .text segment.content]

theorem hashFrom_text (t : Text) :
    heap.hashFrom (fuel + 1) (.text t) = .ok (if t = [] then .int 0 else .text t) := by
  cases t <;> rfl

theorem hashFrom_segment {segment : Segment} (h : heap.cell? v = some segment.cell) :
    heap.hashFrom (fuel + 2) v = .ok (segmentHash segment) := by
  rw [hashFrom, comparable_segment h]
  simp only [List.mapM_cons, List.mapM_nil, hashFrom_text]
  rfl

theorem mapM_hashFrom {items : List Value} {segments : List Segment}
    (h : List.Forall₂ (fun item segment => heap.cell? item = some segment.cell) items segments) :
    items.mapM (heap.hashFrom (fuel + 2)) = .ok (segments.map segmentHash) := by
  induction h with
  | nil => rfl
  | cons hitem _ ih =>
    rw [List.mapM_cons, hashFrom_segment hitem, ih]
    rfl

theorem HasPattern.hash_eq (h : heap.HasPattern v p) :
    heap.hash v = .ok (.tuple (p.segments.map segmentHash)) := by
  obtain ⟨w, items, hv, hw, hitems⟩ := h
  rw [hash, depth, hashFrom, comparable_pattern hv]
  simp only
  rw [hashFrom, comparable_tuple hw]
  simp only [mapM_hashFrom hitems]
  rfl

end Heap

/-! ## Compiling -/

namespace Eval

variable {heap : Heap}

theorem makes_intern_tuple {items : List Value}
    (hempty : heap.cell? Heap.emptyTuple = some (.tuple [])) (h : ∀ v ∈ items, v.IsKept) :
    Makes heap (intern (.tuple items)) fun after v => after.cell? v = some (.tuple items) := by
  intro s a t hs hrun
  rw [on_intern, Prod.mk.injEq, Except.ok.injEq] at hrun
  obtain ⟨rfl, rfl⟩ := hrun
  refine ⟨Heap.extends_intern _ _, ?_⟩
  cases items with
  | nil => exact hs _ _ hempty
  | cons v rest =>
    have hnew : s.heap.intern (.tuple (v :: rest)) = s.heap.allocate (.tuple (v :: rest)) := by
      rw [Heap.intern, Heap.internItems_of_kept h]
      intro hnil
      cases hnil
    rw [hnew]
    exact Heap.cell?_allocate_new _ _

end Eval

open Eval

theorem allocatePattern_eq (template : Text) :
    allocatePattern template =
      ((Pattern.mk template).segments.mapM fun segment => allocate (Segment.cell segment)) >>=
        fun segments => intern (.tuple segments) >>= fun w =>
          allocate (.pattern ⟨template⟩ w) := by
  unfold allocatePattern
  refine congrArg (· >>= _) (congrArg (List.mapM · _) (funext fun segment => ?_))
  cases segment <;> rfl

theorem succeeds_allocate (cell : Cell) : Succeeds (allocate cell) := fun s =>
  ⟨_, _, on_allocate cell s⟩

theorem succeeds_allocatePattern (template : Text) : Succeeds (allocatePattern template) := by
  rw [allocatePattern_eq]
  refine (Succeeds.mapM fun segment => succeeds_allocate (Segment.cell segment)).bind fun segments => ?_
  refine Succeeds.bind (fun s => ⟨_, _, on_intern _ s⟩) fun w => ?_
  exact succeeds_allocate _

theorem makes_allocatePattern {heap : Heap} (template : Text)
    (hempty : heap.cell? Heap.emptyTuple = some (.tuple [])) :
    Makes heap (allocatePattern template) fun after v => after.HasPattern v ⟨template⟩ := by
  rw [allocatePattern_eq]
  refine (Makes.mapM (fun segment _ => makes_allocate (Segment.cell segment))
    fun _ _ _ _ hafter hcell => hafter _ _ hcell).bind fun later segments hlater hsegments => ?_
  have hkept : ∀ v ∈ segments, v.IsKept := by
    intro v hv
    obtain ⟨segment, -, hcell⟩ := exists_left_of_forall₂ hsegments hv
    exact Value.isKept_of_cell? hcell
  refine (makes_intern_tuple (hlater _ _ hempty) hkept).bind fun last w hlast hw => ?_
  refine (makes_allocate _).imp fun after v hafter hv => ?_
  refine ⟨w, segments, hv, hafter _ _ hw, hsegments.flip.imp fun _ _ hcell => ?_⟩
  exact hafter _ _ (hlast _ _ hcell)

namespace Pattern

variable {p q : Pattern}

theorem segments_eq_of_same (h : p.same q = true) : p.segments = q.segments := beq_iff_eq.mp h

theorem divider?_eq_of_same (h : p.same q = true) : p.divider? = q.divider? := by
  rw [divider?_eq_findIdx?, divider?_eq_findIdx?, segments_eq_of_same h]

theorem extractMatches_eq_of_same (h : p.same q = true) (path : Text) :
    p.extractMatches path = q.extractMatches path := by
  have hblocks : p.blocks (splitPath path) = q.blocks (splitPath path) := by
    rw [blocks, blocks, divider?_eq_of_same h, segments_eq_of_same h]
  rw [extractMatches, extractMatches, hblocks]

/-- What patterns are asked for is the same. -/
structure Alike (p q : Pattern) : Prop where
  captureNames : p.captureNames = q.captureNames
  hasCaptures : p.hasCaptures = q.hasCaptures
  hasWildcards : p.hasWildcards = q.hasWildcards
  divider : p.divider? = q.divider?
  extracts : ∀ path, p.extractMatches path = q.extractMatches path
  matched : ∀ call path, matchesOf call p path = matchesOf call q path

theorem alike_of_same (h : p.same q = true) : p.Alike q := by
  have hsegments := segments_eq_of_same h
  have hcaptures : p.hasCaptures = q.hasCaptures := by rw [hasCaptures, hasCaptures, hsegments]
  have hextracts := extractMatches_eq_of_same h
  refine ⟨?_, hcaptures, ?_, divider?_eq_of_same h, hextracts, fun call path => ?_⟩
  · rw [captureNames, captureNames, hsegments]
  · rw [hasWildcards, hasWildcards, hsegments]
  · simp only [matchesOf, hcaptures, hextracts]

theorem multi_unique {place place' : Nat} {name name' : Text}
    (h : p.segments[place]? = some (.multi name))
    (h' : p.segments[place']? = some (.multi name')) : place = place' := by
  have hplace := p.isSound_compiled.multi place name h
  have hplace' := p.isSound_compiled.multi place' name' h'
  exact Option.some.inj (hplace.symm.trans hplace')

theorem same_written (pattern : Pattern) : pattern.same ⟨pattern.written⟩ = true := by
  have hsegments : (Pattern.mk pattern.written).segments = pattern.segments :=
    congrArg Compiled.segments pattern.compiled_written
  rw [same, hsegments]
  exact beq_self_eq_true _

end Pattern

theorem on_isMultiSegment {s : Session} {v : Value} {segment : Segment}
    (h : s.heap.cell? v = some segment.cell) :
    (isMultiSegment v).on s = (.ok (.bool segment.spansMany), s) := by
  unfold isMultiSegment
  rw [on_bind, on_cell?, next_ok, h]
  cases segment with
  | literal text =>
    have hspans : (Value.text text == .text "**") = (Segment.literal text).spansMany := by
      rw [Bool.eq_iff_iff]
      simp [Segment.spansMany, Segment.isMultiWildcard]
    simp only [Segment.cell, Segment.sort, Segment.content, on_bind, on_reading, Heap.same_text,
      hspans]
    rfl
  | single name => rfl
  | multi name => rfl

theorem exists_hasPattern (call : Caller) (template : Text) {s : Session}
    (hempty : s.heap.cell? Heap.emptyTuple = some (.tuple [])) :
    ∃ v t, (newPattern call (.text template)).on s = (.ok v, t) ∧
      ∀ u, t.LeadsTo u → u.heap.HasPattern v ⟨template⟩ := by
  obtain ⟨v, t, hrun⟩ := succeeds_allocatePattern template s
  obtain ⟨-, hpattern⟩ := makes_allocatePattern template hempty s v t (.refl _) hrun
  exact ⟨v, t, hrun, fun u hu => hpattern.retained hu.retains⟩

/-- A template is compiled to one capture of several parts at most, and it is divided at the first
segment that may span several. What it was compiled to lasts. Compiled templates that are equal have
one hash and cannot be told apart by what they match, and the template that is written from the
segments is compiled to an equal one. -/
theorem compiled_canonical (p : Pattern) :
    (∀ (place place' : Nat) (name name' : Text), p.segments[place]? = some (.multi name) →
      p.segments[place']? = some (.multi name') → place = place') ∧
    p.divider? = p.segments.findIdx? Segment.spansMany ∧
    (∀ s v segment, s.heap.cell? v = some (Segment.cell segment) →
      (isMultiSegment v).on s = (.ok (.bool segment.spansMany), s)) ∧
    (∀ call s, s.heap.cell? Heap.emptyTuple = some (.tuple []) →
      ∃ v t, (newPattern call (.text p.template)).on s = (.ok v, t) ∧
        ∀ u, t.LeadsTo u → u.heap.HasPattern v p) ∧
    (∀ heap v w q, Heap.HasPattern heap v p → heap.HasPattern w q →
      heap.same v w = .ok (p.same q) ∧
      (p.same q = true → p.Alike q ∧ ∃ hash, heap.hash v = .ok hash ∧ heap.hash w = .ok hash)) ∧
    (Pattern.mk p.written).compiled = p.compiled ∧ p.same ⟨p.written⟩ = true := by
  refine ⟨fun _ _ _ _ => Pattern.multi_unique, p.divider?_eq_findIdx?,
    fun _ _ _ => on_isMultiSegment, fun call s => exists_hasPattern call p.template, ?_,
    p.compiled_written, p.same_written⟩
  intro heap v w q hv hw
  refine ⟨hv.same_eq hw, fun hsame => ⟨Pattern.alike_of_same hsame, _, hv.hash_eq, ?_⟩⟩
  rw [hw.hash_eq, Pattern.segments_eq_of_same hsame]

/-- Slashes around a template and the way a capture is written do not matter, and a later capture of
several parts is a literal. -/
example : (Pattern.mk "/users//\x7bid=*\x7d/\x7brest=**\x7d/\x7bx=**\x7d/").written =
    "users//\x7bid\x7d/\x7brest=**\x7d/\x7bx=**\x7d" := by decide

end FunctionManifest
