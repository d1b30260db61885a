import FunctionManifest.Proofs.Session.Growth
import FunctionManifest.Proofs.Session.Run
import Mathlib.Data.List.Forall2

/-!
# Making objects

An action that only adds objects to a heap, and what its result is in the heap that it leaves. Other
objects may be in the heap besides those that are known, so what is known stays true while further
actions run.
-/

namespace FunctionManifest

/-- What stands on the right comes from the left. -/
theorem exists_left_of_forall₂ {α β : Type} {R : α → β → Prop} {as : List α} {bs : List β} {b : β}
    (h : List.Forall₂ R as bs) (hb : b ∈ bs) : ∃ a ∈ as, R a b := by
  induction h with
  | nil => cases hb
  | cons hfirst _ ih =>
    rcases List.mem_cons.mp hb with rfl | hb
    · exact ⟨_, List.mem_cons_self, hfirst⟩
    · exact (ih hb).imp fun a ha => ⟨List.mem_cons_of_mem _ ha.1, ha.2⟩

theorem exists_right_of_forall₂ {α β : Type} {R : α → β → Prop} {as : List α} {bs : List β} {a : α}
    (h : List.Forall₂ R as bs) (ha : a ∈ as) : ∃ b ∈ bs, R a b :=
  exists_left_of_forall₂ h.flip ha

/-- What only these items have to imply. -/
theorem forall₂_imp_of_mem {α β : Type} {R S : α → β → Prop} {as : List α} {bs : List β}
    (h : List.Forall₂ R as bs) (himp : ∀ a ∈ as, ∀ b, R a b → S a b) : List.Forall₂ S as bs :=
  ((List.forall₂_and_left as bs).mpr ⟨himp, h⟩).imp fun _ b hab => hab.1 b hab.2

theorem forall₂_comp_of {α β γ : Type} {R : α → β → Prop} {S : β → γ → Prop} {T : α → γ → Prop}
    {as : List α} {bs : List β} {cs : List γ} (h : List.Forall₂ R as bs) (h' : List.Forall₂ S bs cs)
    (hT : ∀ a ∈ as, ∀ b c, R a b → S b c → T a c) : List.Forall₂ T as cs := by
  induction h generalizing cs with
  | nil =>
    cases h'
    exact .nil
  | cons hfirst _ ih =>
    cases h' with
    | cons hfirst' hrest' =>
      exact .cons (hT _ List.mem_cons_self _ _ hfirst hfirst')
        (ih hrest' fun a ha => hT a (List.mem_cons_of_mem _ ha))

namespace Eval

variable {α β : Type} {heap later : Heap} {action : Eval α} {f : α → Eval β}
  {made made' : Heap → α → Prop}

/-- Where these objects are, an action that succeeds only adds to them, and its result is as
described. -/
def Makes (heap : Heap) (action : Eval α) (made : Heap → α → Prop) : Prop :=
  ∀ s a t, s.heap.Extends heap → action.on s = (.ok a, t) → t.heap.Extends s.heap ∧ made t.heap a

/-- At some time between these two heaps the action gave this. -/
def Gave (before : Heap) (action : Eval α) (after : Heap) (a : α) : Prop :=
  ∃ s t, s.heap.Extends before ∧ action.on s = (.ok a, t) ∧ after.Extends t.heap

theorem Gave.mono {before after : Heap} {a : α} (h : Gave before action after a)
    (hlater : later.Extends after) : Gave before action later a := by
  obtain ⟨s, t, hs, hrun, hafter⟩ := h
  exact ⟨s, t, hs, hrun, hlater.trans hafter⟩

namespace Makes

theorem imp (h : Makes heap action made)
    (himp : ∀ after a, after.Extends heap → made after a → made' after a) :
    Makes heap action made' := by
  intro s a t hs hrun
  obtain ⟨hext, hmade⟩ := h s a t hs hrun
  exact ⟨hext, himp _ _ (hext.trans hs) hmade⟩

theorem mono (h : Makes heap action made) (hlater : later.Extends heap) :
    Makes later action made := fun s a t hs hrun => h s a t (hs.trans hlater) hrun

theorem gave (h : Makes heap action made) :
    Makes heap action fun after a => made after a ∧ Gave heap action after a := by
  intro s a t hs hrun
  obtain ⟨hext, hmade⟩ := h s a t hs hrun
  exact ⟨hext, hmade, s, t, hs, hrun, .refl _⟩

theorem bind {made' : Heap → β → Prop} (h : Makes heap action made)
    (hf : ∀ later a, later.Extends heap → made later a → Makes later (f a) made') :
    Makes heap (action >>= f) made' := by
  intro s b u hs hrun
  rw [on_bind, next_eq_ok_iff] at hrun
  obtain ⟨a, t, ha, hb⟩ := hrun
  obtain ⟨hext, hmade⟩ := h s a t hs ha
  obtain ⟨hext', hmade'⟩ := hf t.heap a (hext.trans hs) hmade t b u (.refl _) hb
  exact ⟨hext'.trans hext, hmade'⟩

end Makes

theorem makes_pure {a : α} (h : ∀ after, after.Extends heap → made after a) :
    Makes heap (pure a) made := by
  intro s b t hs hrun
  cases hrun
  exact ⟨.refl _, h _ hs⟩

theorem makes_throw (failure : Failure) : Makes heap (throw failure : Eval α) made := by
  intro s a t _ hrun
  cases hrun

theorem makes_heap : Makes heap Eval.heap fun after found => found = after := by
  intro s a t _ hrun
  cases hrun
  exact ⟨.refl _, rfl⟩

/-- An object that is known is found. -/
theorem makes_cell? {v : Value} {cell : Cell} (h : heap.cell? v = some cell) :
    Makes heap (cell? v) fun _ found => found = some cell := by
  intro s a t hs hrun
  cases hrun
  exact ⟨.refl _, hs _ _ h⟩

theorem makes_reading (read : Heap → Except Failure α) :
    Makes heap (reading read) fun after a => read after = .ok a := by
  intro s a t _ hrun
  rw [on_reading, Prod.mk.injEq] at hrun
  obtain ⟨hread, rfl⟩ := hrun
  exact ⟨.refl _, hread⟩

theorem makes_allocate (cell : Cell) :
    Makes heap (allocate cell) fun after v => after.cell? v = some cell := by
  intro s a t _ hrun
  cases hrun
  exact ⟨Heap.extends_allocate _ _, Heap.cell?_allocate_new _ _⟩

theorem makes_log (level : LogLevel) (logger : String) (text : Text) :
    Makes heap (log level logger text) fun _ _ => True := by
  intro s a t _ hrun
  cases hrun
  exact ⟨.refl _, trivial⟩

/-- One after the other: what was made of an item stays what it is. -/
theorem Makes.mapM {items : List α} {made : α → Heap → β → Prop}
    (h : ∀ a ∈ items, Makes heap (f a) (made a))
    (hstays : ∀ a before after b, after.Extends before → made a before b → made a after b) :
    Makes heap (items.mapM f) fun after bs => List.Forall₂ (fun a b => made a after b) items bs := by
  induction items with
  | nil => exact makes_pure fun _ _ => .nil
  | cons item rest ih =>
    rw [List.mapM_cons]
    refine (h item List.mem_cons_self).bind fun later b hlater hb => ?_
    have hrest := ih fun a ha => h a (List.mem_cons_of_mem _ ha)
    refine (hrest.mono hlater).bind fun after bs hafter hbs => ?_
    exact makes_pure fun last hlast => .cons (hstays _ _ _ _ (hlast.trans hafter) hb)
      (hbs.imp fun a b => hstays a _ _ b hlast)

theorem Makes.option_mapM {item : Option α} (h : ∀ a ∈ item, Makes heap (f a) fun _ _ => True) :
    Makes heap (item.mapM f) fun _ _ => True := by
  cases item with
  | none => exact makes_pure fun _ _ => trivial
  | some a => exact (h a rfl).bind fun _ _ _ _ => makes_pure fun _ _ => trivial

/-! ## Success -/

/-- Where these objects are, the action does not fail. -/
def Returns (heap : Heap) (action : Eval α) : Prop :=
  ∀ s, s.heap.Extends heap → ∃ a t, action.on s = (.ok a, t)

theorem Returns.mono (h : Returns heap action) (hlater : later.Extends heap) :
    Returns later action := fun s hs => h s (hs.trans hlater)

theorem Returns.bind (h : Returns heap action) (hmade : Makes heap action made)
    (hf : ∀ later a, later.Extends heap → made later a → Returns later (f a)) :
    Returns heap (action >>= f) := by
  intro s hs
  obtain ⟨a, t, hrun⟩ := h s hs
  obtain ⟨hext, ha⟩ := hmade s a t hs hrun
  rw [on_bind, hrun, next_ok]
  exact hf t.heap a (hext.trans hs) ha t (.refl _)

theorem returns_reading {read : Heap → Except Failure α}
    (h : ∀ later : Heap, later.Extends heap → ∃ a, read later = .ok a) :
    Returns heap (reading read) := by
  intro s hs
  obtain ⟨a, ha⟩ := h s.heap hs
  exact ⟨a, s, by rw [on_reading, ha]⟩

theorem Returns.mapM {items : List α} {f : α → Eval β}
    (hmade : ∀ a ∈ items, Makes heap (f a) fun _ _ => True)
    (h : ∀ a ∈ items, Returns heap (f a)) : Returns heap (items.mapM f) := by
  induction items generalizing heap with
  | nil => exact fun s _ => ⟨[], s, rfl⟩
  | cons item rest ih =>
    rw [List.mapM_cons]
    refine (h item List.mem_cons_self).bind (hmade item List.mem_cons_self) fun later b hlater _ => ?_
    have hmade := fun a ha => (hmade a (List.mem_cons_of_mem _ ha)).mono hlater
    have hrest := ih hmade fun a ha => (h a (List.mem_cons_of_mem _ ha)).mono hlater
    have hbs := Makes.mapM hmade fun _ _ _ _ _ _ => trivial
    exact hrest.bind hbs fun _ bs _ _ s _ => ⟨b :: bs, s, rfl⟩

theorem Returns.option_mapM {item : Option α} {f : α → Eval β}
    (h : ∀ a ∈ item, Returns heap (f a)) : Returns heap (item.mapM f) := by
  cases item with
  | none => exact fun s _ => ⟨none, s, rfl⟩
  | some a =>
    intro s hs
    obtain ⟨b, t, hrun⟩ := h a rfl s hs
    refine ⟨some b, t, ?_⟩
    change (some <$> f a).on s = _
    rw [on_map, hrun]
    rfl

end Eval

/-! ## New collections -/

namespace Heap

mutual

theorem extends_intern (heap : Heap) : (v : Value) → (heap.intern v).2.Extends heap
  | .list items => (extends_allocate _ _).trans (extends_internItems heap items)
  | .tuple [] => .refl heap
  | .tuple (v :: rest) => (extends_allocate _ _).trans (extends_internItems heap (v :: rest))
  | .mapping entries => (extends_allocate _ _).trans (extends_internEntries heap entries)
  | .null | .bool _ | .int _ | .float _ | .text _ | .ref _ => .refl heap

theorem extends_internItems (heap : Heap) :
    (items : List Value) → (heap.internItems items).2.Extends heap
  | [] => .refl heap
  | v :: rest => (extends_internItems _ rest).trans (extends_intern heap v)

theorem extends_internEntries (heap : Heap) :
    (entries : Entries) → (heap.internEntries entries).2.Extends heap
  | [] => .refl heap
  | (k, v) :: rest =>
    ((extends_internEntries _ rest).trans (extends_intern _ v)).trans (extends_intern heap k)

end

end Heap

/-- No new object is made of the value. -/
def Value.IsKept (v : Value) : Prop := ∀ heap : Heap, heap.intern v = (v, heap)

theorem Value.isKept_text (t : Text) : (Value.text t).IsKept := fun _ => rfl

theorem Value.isKept_texts (texts : List (Text × Text)) :
    ∀ entry ∈ texts.map fun t => (Value.text t.1, Value.text t.2),
      entry.1.IsKept ∧ entry.2.IsKept :=
  List.forall_mem_map.mpr fun _ _ => ⟨isKept_text _, isKept_text _⟩

/-- What refers to an object is kept. -/
theorem Value.isKept_of_cell? {heap : Heap} {v : Value} {cell : Cell}
    (h : heap.cell? v = some cell) : v.IsKept := by
  cases v with
  | ref address => exact fun _ => rfl
  | _ => cases h

theorem Heap.internItems_of_kept {heap : Heap} {items : List Value} (h : ∀ v ∈ items, v.IsKept) :
    heap.internItems items = (items, heap) := by
  induction items with
  | nil => rfl
  | cons v rest ih =>
    rw [internItems, h v List.mem_cons_self heap]
    simp only [ih fun v hv => h v (List.mem_cons_of_mem _ hv)]

theorem Heap.internEntries_append {heap : Heap} {known : Entries}
    (h : ∀ entry ∈ known, entry.1.IsKept ∧ entry.2.IsKept) (others : Entries) :
    heap.internEntries (known ++ others) =
      (known ++ (heap.internEntries others).1, (heap.internEntries others).2) := by
  induction known with
  | nil => rfl
  | cons entry known ih =>
    obtain ⟨hkey, hvalue⟩ := h entry List.mem_cons_self
    rw [List.cons_append, internEntries, hkey heap]
    simp only [hvalue heap, ih fun entry hentry => h entry (List.mem_cons_of_mem _ hentry),
      List.cons_append]

theorem Heap.internEntries_of_kept {heap : Heap} {entries : Entries}
    (h : ∀ entry ∈ entries, entry.1.IsKept ∧ entry.2.IsKept) :
    heap.internEntries entries = (entries, heap) := by
  rw [← List.append_nil entries, internEntries_append h]
  rfl

namespace Eval

variable {heap : Heap} {made : Heap → Value → Prop}

theorem makes_intern {v : Value} (h : ∀ before : Heap, made (before.intern v).2 (before.intern v).1) :
    Makes heap (intern v) made := by
  intro s a t _ hrun
  rw [on_intern, Prod.mk.injEq, Except.ok.injEq] at hrun
  obtain ⟨rfl, rfl⟩ := hrun
  exact ⟨Heap.extends_intern _ _, h _⟩

theorem makes_intern_list {items : List Value} (h : ∀ v ∈ items, v.IsKept) :
    Makes heap (intern (.list items)) fun after v => after.cell? v = some (.list items) := by
  refine makes_intern fun before => ?_
  rw [Heap.intern, Heap.internItems_of_kept h]
  exact Heap.cell?_allocate_new _ _

theorem makes_intern_mapping {entries : Entries}
    (h : ∀ entry ∈ entries, entry.1.IsKept ∧ entry.2.IsKept) :
    Makes heap (intern (.mapping entries)) fun after v =>
      after.cell? v = some (.mapping entries) := by
  refine makes_intern fun before => ?_
  rw [Heap.intern, Heap.internEntries_of_kept h]
  exact Heap.cell?_allocate_new _ _

/-- Whatever else a new mapping has, it begins with what it was given first. -/
theorem makes_intern_beginning {known : Entries}
    (h : ∀ entry ∈ known, entry.1.IsKept ∧ entry.2.IsKept) (entries : Entries) :
    Makes heap (intern (.mapping (known ++ entries))) fun after w =>
      ∃ others, after.cell? w = some (.mapping (known ++ others)) := by
  refine makes_intern fun before => ⟨(before.internEntries entries).1, ?_⟩
  rw [Heap.intern, Heap.internEntries_append h]
  exact Heap.cell?_allocate_new _ _

end Eval

end FunctionManifest
