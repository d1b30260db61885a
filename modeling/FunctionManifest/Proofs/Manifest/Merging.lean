import FunctionManifest.Proofs.Manifest.Stack

/-!
# Merging required APIs

What merging gives in a session: a list of new objects for what the requirements are folded to. The
list can be merged again, since these objects require their APIs themselves.
-/

namespace FunctionManifest

namespace Heap

/-- What was merged requires the APIs that it holds. -/
theorem HoldsApis.requireAll {heap : Heap} {listed : Value} {apis : List (Text × Text)}
    (h : heap.HoldsApis listed apis) :
    ∃ objects, heap.items? listed = some objects ∧ heap.RequireAll objects apis := by
  obtain ⟨objects, hlisted, hobjects⟩ := h
  refine ⟨objects, ?_, hobjects.imp fun v api => Heap.requires_of_cell?⟩
  cases listed with
  | ref address => simp [Heap.items?, Heap.content, hlisted]
  | _ => cases hlisted

end Heap

open Eval RequiredApi

/-- Merging what the value lists gives a list of these APIs. -/
def MergesTo (call : Caller) (s : Session) (v listed : Value) (apis : List (Text × Text))
    (t : Session) : Prop :=
  (callBuiltin call .mergeRequiredApis [v] []).on s = (.ok listed, t) ∧
    t.heap.HoldsApis listed apis

section

variable {call : Caller} {s : Session} {v : Value} {items : List Value}
  {given : List (Text × Text)}

theorem on_mergeRequiredApis (hitems : s.heap.items? v = some items) :
    (callBuiltin call .mergeRequiredApis [v] []).on s = (newApis items).on s := by
  have hbind : Builtin.mergeRequiredApis.signature.bind [v] [] =
      .ok ⟨[("required_apis", v)], [], []⟩ := rfl
  have hread : s.heap.items v = .ok items := by rw [Heap.items, hitems]
  have hargument : (⟨[("required_apis", v)], [], []⟩ : Arguments).get "required_apis" = v := rfl
  simp only [callBuiltin, Builtin.receivesObject, Builtin.isConstructor, Bool.false_eq_true,
    if_false, List.nil_append, hbind, on_bind, on_ofExcept, next_ok, runBuiltin, hargument,
    on_reading, hread]

theorem returns_listApis {heap : Heap} (apis : List (Text × Text)) :
    Returns heap ((apis.map RequiredApi.plain).mapM allocateApi >>= fun objects =>
      intern (.list objects)) := by
  have hmade : ∀ api ∈ apis.map RequiredApi.plain,
      Makes heap (allocateApi api) fun _ _ => True := by
    intro api _
    exact (makes_allocate _).imp fun _ _ _ _ => trivial
  have hreturns : ∀ api ∈ apis.map RequiredApi.plain, Returns heap (allocateApi api) := by
    intro api _ s _
    exact ⟨_, _, on_allocate _ _⟩
  exact (Returns.mapM hmade hreturns).bind (Makes.mapM hmade fun _ _ _ _ _ _ => trivial)
    fun _ _ _ _ => returns_intern _

theorem exists_mergesTo (hitems : s.heap.items? v = some items)
    (hgiven : s.heap.RequireAll items given) :
    ∃ listed t, MergesTo call s v listed (folded given) t := by
  obtain ⟨listed, t, hrun⟩ := returns_listApis (folded given) s (Heap.Extends.refl _)
  obtain ⟨-, hlisted⟩ := makes_listApis (folded given) s listed t (Heap.Extends.refl _) hrun
  refine ⟨listed, t, ?_, hlisted⟩
  rw [on_mergeRequiredApis hitems, newApis, on_bind, on_reading, hgiven.mergedApis, next_ok]
  exact hrun

/-- Merging gives each API once, in the order of the first requirements, with its distinct reasons
in the order in which they were first given. Merging that again changes nothing, and requirements of
different APIs are merged apart. -/
theorem required_apis_folded :
    (∀ v items given, s.heap.items? v = some items → s.heap.RequireAll items given →
      ∃ listed t, MergesTo call s v listed (folded given) t ∧
        ∃ again u, MergesTo call t listed again (folded given) u) ∧
    ∀ v items first items' second, s.heap.items? v = some (items ++ items') →
      s.heap.RequireAll items first → s.heap.RequireAll items' second →
      (∀ r ∈ first, ∀ r' ∈ second, r.1 ≠ r'.1) →
      ∃ listed t, MergesTo call s v listed (folded first ++ folded second) t := by
  constructor
  · intro v items given hitems hgiven
    obtain ⟨listed, t, hmerged⟩ := exists_mergesTo hitems hgiven
    obtain ⟨objects, hobjects, hrequire⟩ := hmerged.2.requireAll
    obtain ⟨again, u, hagain⟩ := exists_mergesTo hobjects hrequire
    rw [folded_folded] at hagain
    exact ⟨listed, t, hmerged, again, u, hagain⟩
  · intro v items first items' second hitems hfirst hsecond hapart
    rw [← folded_append hapart]
    exact exists_mergesTo hitems (List.rel_append hfirst hsecond)

end

/-- A session with a list of an object and a mapping that require the same API. -/
def twiceRequired : Session :=
  { Session.fresh default default with heap := { Heap.initial with cells :=
      #[.tuple [], .registry .empty, .api (.plain ("a", "x")),
        .mapping [(.text "reason", .text "y"), (.text "api", .text "a")],
        .list [.ref 2, .ref 3, .ref 2]] } }

theorem required_apis_folded_twice :
    let call : Caller := fun _ _ _ => throw .noValue
    ∃ listed t, MergesTo call twiceRequired (.ref 4) listed [("a", "x y")] t := by
  intro call
  have hcell : twiceRequired.heap.cell? (.ref 2) = some (.api (.plain ("a", "x"))) := rfl
  have hobject : twiceRequired.heap.Requires (.ref 2) "a" "x" := Heap.requires_of_cell? hcell
  have hmapping : twiceRequired.heap.Requires (.ref 3) "a" "y" :=
    Heap.requires_iff.mpr (.inl ⟨_, rfl, rfl, rfl⟩)
  have hgiven : twiceRequired.heap.RequireAll [.ref 2, .ref 3, .ref 2]
      [("a", "x"), ("a", "y"), ("a", "x")] :=
    .cons hobject (.cons hmapping (.cons hobject .nil))
  obtain ⟨hmerge, -⟩ := required_apis_folded
  obtain ⟨listed, t, hmerged, -⟩ := hmerge (.ref 4) _ _ rfl hgiven
  have hfolded : folded [("a", "x"), ("a", "y"), ("a", "x")] =
      [(Text.ofString "a", Text.ofString "x y")] := by
    decide
  rw [hfolded] at hmerged
  exact ⟨listed, t, hmerged⟩

end FunctionManifest
