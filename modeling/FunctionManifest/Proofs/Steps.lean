import FunctionManifest.Failure

/-!
# Steps that may fail

Loops whose steps may fail, and what comes of them where no step does.
-/

namespace FunctionManifest

theorem bind_eq_ok_iff {ε α β : Type} {x : Except ε α} {f : α → Except ε β} {b : β} :
    x >>= f = .ok b ↔ ∃ a, x = .ok a ∧ f a = .ok b := by
  cases x <;> simp [bind, Except.bind]

/-! ## Filters and searches -/

theorem filterAuxM_of_ok {α : Type} {p : α → Except Failure Bool} {q : α → Bool} {items : List α}
    (h : ∀ a ∈ items, p a = .ok (q a)) (kept : List α) :
    items.filterAuxM p kept = .ok ((items.filter q).reverse ++ kept) := by
  induction items generalizing kept with
  | nil => rfl
  | cons item rest ih =>
    rw [List.filterAuxM, h item List.mem_cons_self]
    change rest.filterAuxM p _ = _
    rw [ih fun a ha => h a (List.mem_cons_of_mem _ ha)]
    cases hq : q item <;> simp [hq]

theorem filterM_of_ok {α : Type} {p : α → Except Failure Bool} {q : α → Bool} {items : List α}
    (h : ∀ a ∈ items, p a = .ok (q a)) : items.filterM p = .ok (items.filter q) := by
  rw [List.filterM, filterAuxM_of_ok h]
  simp [bind, Except.bind, pure, Except.pure]

theorem sublist_of_filterAuxM_ok {α : Type} {p : α → Except Failure Bool}
    {items before found : List α} (h : items.filterAuxM p before = .ok found) :
    ∃ kept : List α, kept.Sublist items ∧ found = kept.reverse ++ before := by
  induction items generalizing before with
  | nil =>
    cases h
    exact ⟨[], .slnil, rfl⟩
  | cons item rest ih =>
    rw [List.filterAuxM] at h
    obtain ⟨keep, -, h⟩ := bind_eq_ok_iff.mp h
    obtain ⟨kept, hkept, rfl⟩ := ih h
    cases keep with
    | false => exact ⟨kept, hkept.cons item, rfl⟩
    | true => exact ⟨item :: kept, hkept.cons_cons item, by simp⟩

theorem sublist_of_filterM_ok {α : Type} {p : α → Except Failure Bool} {items kept : List α}
    (h : items.filterM p = .ok kept) : kept.Sublist items := by
  obtain ⟨found, hfound, h⟩ := bind_eq_ok_iff.mp h
  obtain ⟨kept, hkept, rfl⟩ := sublist_of_filterAuxM_ok hfound
  cases h
  simpa using hkept

theorem filterM_of_error {α : Type} {p : α → Except Failure Bool} {items : List α}
    (h : ∃ a ∈ items, ∀ b, p a ≠ .ok b) : ∃ failure, items.filterM p = .error failure := by
  suffices haux : ∀ kept, ∃ failure, items.filterAuxM p kept = .error failure by
    obtain ⟨failure, hfailure⟩ := haux []
    exact ⟨failure, by rw [List.filterM, hfailure]; rfl⟩
  intro kept
  induction items generalizing kept with
  | nil => simp at h
  | cons item rest ih =>
    rw [List.filterAuxM]
    cases hitem : p item with
    | error failure => exact ⟨failure, rfl⟩
    | ok b =>
      obtain ⟨a, ha, hfails⟩ := h
      rcases List.mem_cons.mp ha with rfl | ha
      · exact absurd hitem (hfails b)
      · exact ih ⟨a, ha, hfails⟩ _

theorem findM?_map_of_ok {α β : Type} {f : β → α} {p : α → Except Failure Bool} {q : β → Bool}
    {items : List β} (h : ∀ b ∈ items, p (f b) = .ok (q b)) :
    (items.map f).findM? p = .ok ((items.find? q).map f) := by
  induction items with
  | nil => rfl
  | cons item rest ih =>
    rw [List.map_cons, List.findM?, h item List.mem_cons_self]
    cases hq : q item
    · simpa [hq, bind, Except.bind] using ih fun b hb => h b (List.mem_cons_of_mem _ hb)
    · simp [hq, bind, Except.bind, pure, Except.pure]

theorem anyM_map_of_ok {α β : Type} {f : β → α} {p : α → Except Failure Bool} {q : β → Bool}
    {items : List β} (h : ∀ b ∈ items, p (f b) = .ok (q b)) :
    (items.map f).anyM p = .ok (items.any q) := by
  induction items with
  | nil => rfl
  | cons item rest ih =>
    rw [List.map_cons, List.anyM, h item List.mem_cons_self]
    cases hq : q item
    · simpa [hq, bind, Except.bind] using ih fun b hb => h b (List.mem_cons_of_mem _ hb)
    · simp [hq, bind, Except.bind, pure, Except.pure]

theorem exists_mapM_ok {ε α β : Type} {f : α → Except ε β} {items : List α}
    (h : ∀ a ∈ items, ∃ b, f a = .ok b) : ∃ bs, items.mapM f = .ok bs := by
  induction items with
  | nil => exact ⟨[], rfl⟩
  | cons item rest ih =>
    obtain ⟨b, hfirst⟩ := h item List.mem_cons_self
    obtain ⟨bs, hrest⟩ := ih fun a ha => h a (List.mem_cons_of_mem _ ha)
    exact ⟨b :: bs, by rw [List.mapM_cons, hfirst, hrest]; rfl⟩

theorem mapM_of_ok {α β : Type} {f : α → Except Failure β} {g : α → β} {items : List α}
    (h : ∀ a ∈ items, f a = .ok (g a)) : items.mapM f = .ok (items.map g) := by
  induction items with
  | nil => rfl
  | cons item rest ih =>
    rw [List.mapM_cons, h item List.mem_cons_self, ih fun a ha => h a (List.mem_cons_of_mem _ ha)]
    rfl

end FunctionManifest
