import FunctionManifest.Assoc
import Mathlib.Data.List.Basic
import Mathlib.Data.List.Induction

/-!
# Laws of insertion-ordered dictionaries

What is found under a key is what was set last, and setting a key changes nothing under another.
-/

namespace FunctionManifest.Assoc

variable {α β : Type}

/-- Putting an entry adds it behind all others, or gives the first one with its key a value. -/
theorem putBy_cases (same : α → α → Bool) (entries : List (α × β)) (key : α) (value : β) :
    (∀ e ∈ entries, same e.1 key = false) ∧ lookBy same entries key = none ∧
        putBy same entries key value = entries ++ [(key, value)] ∨
      ∃ before k old after, entries = before ++ (k, old) :: after ∧ same k key = true ∧
        lookBy same entries key = some old ∧
        putBy same entries key value = before ++ (k, value) :: after := by
  induction entries with
  | nil => exact .inl ⟨nofun, rfl, rfl⟩
  | cons entry rest ih =>
    cases hsame : same entry.1 key with
    | true =>
      exact .inr ⟨[], entry.1, entry.2, rest, rfl, hsame, by simp [lookBy, hsame],
        by simp [putBy, hsame]⟩
    | false =>
      rcases ih with ⟨hall, hlook, hput⟩ | ⟨before, k, old, after, hrest, hkey, hlook, hput⟩
      · refine .inl ⟨List.forall_mem_cons.mpr ⟨hsame, hall⟩, ?_, by simp [putBy, hsame, hput]⟩
        simpa [lookBy, hsame] using hlook
      · refine .inr ⟨entry :: before, k, old, after, by simp [hrest], hkey, ?_,
          by simp [putBy, hsame, hput]⟩
        simpa [lookBy, hsame] using hlook

/-- An entry is old, or it has the new value under the key or under an old one. -/
theorem mem_or_of_mem_putBy {same : α → α → Bool} {entries : List (α × β)} {key : α} {value : β}
    {entry : α × β} (h : entry ∈ putBy same entries key value) :
    entry ∈ entries ∨ entry.2 = value ∧ (entry.1 = key ∨ entry.1 ∈ entries.map Prod.fst) := by
  obtain ⟨-, -, hput⟩ | ⟨before, k, old, after, rfl, -, -, hput⟩ :=
    putBy_cases same entries key value <;> rw [hput] at h
  · rcases List.mem_append.mp h with h | h
    · exact .inl h
    · rw [List.mem_singleton.mp h]
      exact .inr ⟨rfl, .inl rfl⟩
  · rcases List.mem_append.mp h with h | h
    · exact .inl (List.mem_append_left _ h)
    · rcases List.mem_cons.mp h with rfl | h
      · exact .inr ⟨rfl, .inr (by simp)⟩
      · exact .inl (List.mem_append_right _ (List.mem_cons_of_mem _ h))

theorem exists_mem_putBy (same : α → α → Bool) (entries : List (α × β)) (key : α) (value : β) :
    ∃ k, (k = key ∨ same k key = true) ∧ (k, value) ∈ putBy same entries key value := by
  obtain ⟨-, -, hput⟩ | ⟨before, k, old, after, rfl, hkey, -, hput⟩ :=
    putBy_cases same entries key value <;> rw [hput]
  · exact ⟨key, .inl rfl, by simp⟩
  · exact ⟨k, .inr hkey, by simp⟩

/-- No key is lost. -/
theorem mem_putBy_of_mem {same : α → α → Bool} {entries : List (α × β)} {entry : α × β}
    (h : entry ∈ entries) (key : α) (value : β) :
    entry ∈ putBy same entries key value ∨ (entry.1, value) ∈ putBy same entries key value := by
  obtain ⟨-, -, hput⟩ | ⟨before, k, old, after, rfl, -, -, hput⟩ :=
    putBy_cases same entries key value <;> rw [hput]
  · exact .inl (List.mem_append_left _ h)
  · rcases List.mem_append.mp h with h | h
    · exact .inl (List.mem_append_left _ h)
    · rcases List.mem_cons.mp h with rfl | h
      · exact .inr (by simp)
      · exact .inl (List.mem_append_right _ (List.mem_cons_of_mem _ h))

variable [DecidableEq α] [BEq α]

omit [DecidableEq α] in
@[simp] theorem get?_nil (key : α) : get? ([] : List (α × β)) key = none := rfl

omit [DecidableEq α] in
@[simp] theorem set_nil (key : α) (value : β) : set [] key value = [(key, value)] := rfl

omit [DecidableEq α] in
theorem get?_append (entries later : List (α × β)) (key : α) :
    get? (entries ++ later) key = (get? entries key).or (get? later key) := by
  simp only [get?, lookBy, List.find?_append]
  cases entries.find? fun entry => entry.1 == key <;> rfl

variable [LawfulBEq α]

theorem get?_cons (entry : α × β) (entries : List (α × β)) (key : α) :
    get? (entry :: entries) key = if entry.1 = key then some entry.2 else get? entries key := by
  by_cases h : entry.1 = key <;> simp [get?, lookBy, h]

theorem set_cons (entry : α × β) (entries : List (α × β)) (key : α) (value : β) :
    set (entry :: entries) key value =
      if entry.1 = key then (entry.1, value) :: entries else entry :: set entries key value := by
  by_cases h : entry.1 = key <;> simp [set, putBy, h]

@[simp] theorem get?_set_self (entries : List (α × β)) (key : α) (value : β) :
    get? (set entries key value) key = some value := by
  induction entries with
  | nil => simp [get?_cons]
  | cons entry rest ih =>
    rw [set_cons]
    by_cases h : entry.1 = key <;> simp [get?_cons, h, ih]

theorem get?_set_of_ne (entries : List (α × β)) {key other : α} (value : β) (h : key ≠ other) :
    get? (set entries key value) other = get? entries other := by
  induction entries with
  | nil => simp [get?_cons, h]
  | cons entry rest ih =>
    rw [set_cons]
    by_cases hk : entry.1 = key
    · subst hk
      simp [get?_cons, h]
    · simp [get?_cons, hk, ih]

omit [DecidableEq α] in
theorem contains_iff (entries : List (α × β)) (key : α) :
    contains entries key = true ↔ ∃ value, (key, value) ∈ entries := by
  simp only [contains, List.any_eq_true, beq_iff_eq]
  constructor
  · rintro ⟨⟨k, v⟩, h, rfl⟩
    exact ⟨v, h⟩
  · rintro ⟨v, h⟩
    exact ⟨_, h, rfl⟩

omit [DecidableEq α] in
theorem contains_eq_true_iff (entries : List (α × β)) (key : α) :
    contains entries key = true ↔ key ∈ entries.map Prod.fst := by
  simp [contains_iff]

omit [DecidableEq α] in
theorem contains_eq_false_iff (entries : List (α × β)) (key : α) :
    contains entries key = false ↔ key ∉ entries.map Prod.fst := by
  rw [← contains_eq_true_iff, Bool.not_eq_true]

theorem contains_set (entries : List (α × β)) (key other : α) (value : β) :
    contains (set entries key value) other = (contains entries other || key == other) := by
  induction entries with
  | nil => simp [contains]
  | cons entry rest ih =>
    rw [set_cons]
    by_cases h : entry.1 = key
    · subst h
      simp only [contains, if_true, List.any_cons]
      cases entry.1 == other <;> simp
    · rw [if_neg h]
      simp only [contains, List.any_cons] at ih ⊢
      rw [ih, Bool.or_assoc]

theorem contains_of_get? {entries : List (α × β)} {key : α} {value : β}
    (h : get? entries key = some value) : contains entries key = true := by
  induction entries with
  | nil => simp at h
  | cons entry rest ih =>
    rw [get?_cons] at h
    by_cases hk : entry.1 = key
    · simp [contains, hk]
    · rw [if_neg hk] at h
      have hrest := ih h
      simp only [contains] at hrest
      simp [contains, hrest]

theorem get?_eq_none_iff (entries : List (α × β)) (key : α) :
    get? entries key = none ↔ key ∉ entries.map Prod.fst := by
  induction entries with
  | nil => simp
  | cons entry rest ih =>
    rw [get?_cons]
    by_cases h : entry.1 = key
    · simp [h]
    · rw [if_neg h, ih]
      simp [Ne.symm h]

theorem mem_of_get? {entries : List (α × β)} {key : α} {value : β}
    (h : get? entries key = some value) : (key, value) ∈ entries := by
  induction entries with
  | nil => simp at h
  | cons entry rest ih =>
    rw [get?_cons] at h
    split at h
    · rename_i hk
      rw [← hk, ← Option.some.inj h]
      exact List.mem_cons_self
    · exact List.mem_cons_of_mem _ (ih h)

theorem get?_of_mem {entries : List (α × β)} (h : (entries.map Prod.fst).Nodup) {key : α} {value : β}
    (hmem : (key, value) ∈ entries) : get? entries key = some value := by
  induction entries with
  | nil => cases hmem
  | cons entry rest ih =>
    rw [List.map_cons, List.nodup_cons] at h
    rw [get?_cons]
    rcases List.mem_cons.mp hmem with rfl | hin
    · exact if_pos rfl
    · have hne : entry.1 ≠ key := fun heq => h.1 (heq ▸ List.mem_map_of_mem (f := Prod.fst) hin)
      rw [if_neg hne]
      exact ih h.2 hin

/-! ## Many entries -/

omit [DecidableEq α] [LawfulBEq α] in
theorem setAll_append (entries news more : List (α × β)) :
    setAll entries (news ++ more) = setAll (setAll entries news) more :=
  List.foldl_append

omit [DecidableEq α] [LawfulBEq α] in
/-- A loop whose steps set what they make, and do not fail. -/
theorem foldlM_eq_setAll {ι : Type} {step : List (α × β) → ι → Option (List (α × β))}
    {make : ι → Option (α × β)} {items : List ι}
    (h : ∀ item ∈ items, ∀ entries, step entries item = some (setAll entries (make item).toList))
    (entries : List (α × β)) :
    items.foldlM step entries = some (setAll entries (items.filterMap make)) := by
  induction items generalizing entries with
  | nil => rfl
  | cons item rest ih =>
    have hrest := ih fun other hother => h other (List.mem_cons_of_mem _ hother)
    have hnews : (item :: rest).filterMap make = (make item).toList ++ rest.filterMap make := by
      cases hmake : make item <;> simp [hmake]
    rw [List.foldlM_cons, h item List.mem_cons_self, hnews, setAll_append]
    exact hrest _

theorem contains_setAll (entries news : List (α × β)) (key : α) :
    contains (setAll entries news) key = (contains entries key || contains news key) := by
  induction news generalizing entries with
  | nil => simp [setAll, contains]
  | cons entry rest ih =>
    have h := ih (set entries entry.1 entry.2)
    simp only [setAll, List.foldl_cons] at h ⊢
    rw [h, contains_set, Bool.or_assoc]
    rfl

theorem get?_setAll_of_not_mem (entries : List (α × β)) {news : List (α × β)} {key : α}
    (h : ∀ entry ∈ news, entry.1 ≠ key) : get? (setAll entries news) key = get? entries key := by
  induction news generalizing entries with
  | nil => rfl
  | cons entry rest ih =>
    have h' := ih (set entries entry.1 entry.2) fun e he => h e (List.mem_cons_of_mem _ he)
    simp only [setAll, List.foldl_cons] at h' ⊢
    rw [h', get?_set_of_ne _ _ (h entry List.mem_cons_self)]

/-- The last one under a key is the one that stays. -/
theorem get?_setAll_of_last (entries before after : List (α × β)) (key : α) (value : β)
    (h : ∀ entry ∈ after, entry.1 ≠ key) :
    get? (setAll entries (before ++ (key, value) :: after)) key = some value := by
  simp only [setAll, List.foldl_append, List.foldl_cons]
  exact (get?_setAll_of_not_mem _ h).trans (get?_set_self _ _ _)

theorem mem_of_mem_set {entries : List (α × β)} {key : α} {value : β} {entry : α × β}
    (h : entry ∈ set entries key value) : entry ∈ entries ∨ entry = (key, value) := by
  induction entries with
  | nil => exact .inr (List.mem_singleton.mp h)
  | cons first rest ih =>
    rw [set_cons] at h
    split at h
    · rename_i hkey
      rcases List.mem_cons.mp h with rfl | h
      · exact .inr (by rw [hkey])
      · exact .inl (List.mem_cons_of_mem _ h)
    · rcases List.mem_cons.mp h with rfl | h
      · exact .inl List.mem_cons_self
      · exact (ih h).imp_left (List.mem_cons_of_mem _)

theorem mem_of_mem_setAll {entries news : List (α × β)} {entry : α × β}
    (h : entry ∈ setAll entries news) : entry ∈ entries ∨ entry ∈ news := by
  induction news generalizing entries with
  | nil => exact .inl h
  | cons new rest ih =>
    rcases ih h with hset | hrest
    · rcases mem_of_mem_set hset with hold | rfl
      · exact .inl hold
      · exact .inr List.mem_cons_self
    · exact .inr (List.mem_cons_of_mem _ hrest)

theorem get?_setAll_toList (entries : List (α × β)) (new : Option (α × β)) (key : α) (value : β) :
    get? (setAll entries new.toList) key = some value ↔
      new = some (key, value) ∨ (∀ w, new ≠ some (key, w)) ∧ get? entries key = some value := by
  cases new with
  | none => simp [setAll]
  | some entry =>
    obtain ⟨k, v⟩ := entry
    change get? (set entries k v) key = some value ↔ _
    by_cases h : k = key
    · subst h
      simp
    · simp [get?_set_of_ne entries v h, h]

/-- Of the entries that are made place by place, the last one under a key is the one that stays. -/
theorem get?_ofList_filterMap_zipIdx {γ : Type} (make : γ × Nat → Option (α × β)) (items : List γ)
    (key : α) (value : β) :
    get? (ofList (items.zipIdx.filterMap make)) key = some value ↔
      ∃ place item, items[place]? = some item ∧ make (item, place) = some (key, value) ∧
        ∀ later other, place < later → items[later]? = some other →
          ∀ w, make (other, later) ≠ some (key, w) := by
  induction items using List.reverseRecOn with
  | nil => simp [ofList, setAll]
  | append_singleton items item ih =>
    have hat : ∀ place other, (items ++ [item])[place]? = some other ↔
        items[place]? = some other ∨ place = items.length ∧ item = other := by
      intro place other
      rcases Nat.lt_or_ge place items.length with hlt | hge
      · simp [List.getElem?_append_left hlt, Nat.ne_of_lt hlt]
      · rw [List.getElem?_append_right hge, List.getElem?_singleton, List.getElem?_eq_none hge,
          Option.ite_none_right_eq_some, Option.some.injEq, Nat.sub_eq_zero_iff_le]
        simp [Nat.le_antisymm_iff, hge]
    have hsplit : ofList ((items ++ [item]).zipIdx.filterMap make) =
        setAll (ofList (items.zipIdx.filterMap make)) (make (item, items.length)).toList := by
      rw [List.zipIdx_append, List.filterMap_append, ofList, setAll_append]
      cases hmake : make (item, items.length) <;> simp [hmake, ofList]
    rw [hsplit, get?_setAll_toList, ih]
    constructor
    · rintro (hnew | ⟨hother, place, old, hold, hmake, hlater⟩)
      · refine ⟨items.length, item, (hat _ _).mpr (.inr ⟨rfl, rfl⟩), hnew, fun later other hlt hin => ?_⟩
        rcases (hat _ _).mp hin with hin | ⟨hlast, -⟩
        · have hbound := (List.getElem?_eq_some_iff.mp hin).1
          omega
        · omega
      · refine ⟨place, old, (hat _ _).mpr (.inl hold), hmake, fun later other hlt hin => ?_⟩
        rcases (hat _ _).mp hin with hin | ⟨rfl, rfl⟩
        · exact hlater later other hlt hin
        · exact hother
    · rintro ⟨place, old, hold, hmake, hlater⟩
      rcases (hat _ _).mp hold with hin | ⟨rfl, rfl⟩
      · have hbound := (List.getElem?_eq_some_iff.mp hin).1
        refine .inr ⟨hlater _ _ hbound ((hat _ _).mpr (.inr ⟨rfl, rfl⟩)), place, old, hin, hmake, ?_⟩
        exact fun later other hlt hother => hlater later other hlt ((hat _ _).mpr (.inl hother))
      · exact .inl hmake

/-! ## Values -/

section

variable {γ : Type} (change : β → γ)

theorem map_set (entries : List (α × β)) (key : α) (value : β) :
    (set entries key value).map (fun e => (e.1, change e.2)) =
      set (entries.map fun e => (e.1, change e.2)) key (change value) := by
  induction entries with
  | nil => rfl
  | cons entry rest ih =>
    rw [set_cons, List.map_cons, set_cons]
    split
    · rfl
    · rw [List.map_cons, ih]

theorem get?_map (entries : List (α × β)) (key : α) :
    get? (entries.map fun e => (e.1, change e.2)) key = (get? entries key).map change := by
  induction entries with
  | nil => rfl
  | cons entry rest ih =>
    rw [List.map_cons, get?_cons, get?_cons, ih]
    split <;> rfl

/-- Values are changed before they are set or afterwards. -/
theorem map_setAll (entries news : List (α × β)) :
    (setAll entries news).map (fun e => (e.1, change e.2)) =
      setAll (entries.map fun e => (e.1, change e.2)) (news.map fun e => (e.1, change e.2)) := by
  induction news generalizing entries with
  | nil => rfl
  | cons entry rest ih =>
    have hrest := ih (set entries entry.1 entry.2)
    rw [map_set] at hrest
    exact hrest

end

/-! ## Keys -/

theorem map_fst_set (entries : List (α × β)) (key : α) (value : β) :
    (set entries key value).map Prod.fst =
      if key ∈ entries.map Prod.fst then entries.map Prod.fst
      else entries.map Prod.fst ++ [key] := by
  induction entries with
  | nil => simp
  | cons entry rest ih =>
    rw [set_cons]
    by_cases h : entry.1 = key
    · simp [h]
    · rw [if_neg h, List.map_cons, ih]
      by_cases hrest : key ∈ rest.map Prod.fst
      · simp [hrest]
      · simp [hrest, Ne.symm h]

theorem nodup_keys_set {entries : List (α × β)} (h : (entries.map Prod.fst).Nodup) (key : α)
    (value : β) : ((set entries key value).map Prod.fst).Nodup := by
  rw [map_fst_set]
  split
  · exact h
  · rename_i hnew
    refine List.nodup_append.mpr ⟨h, by simp, fun a ha b hb hab => hnew ?_⟩
    rw [← List.mem_singleton.mp hb, ← hab]
    exact ha

theorem nodup_keys_setAll {entries : List (α × β)} (h : (entries.map Prod.fst).Nodup)
    (news : List (α × β)) : ((setAll entries news).map Prod.fst).Nodup := by
  induction news generalizing entries with
  | nil => exact h
  | cons entry rest ih => exact ih (nodup_keys_set h _ _)

theorem set_of_not_mem {entries : List (α × β)} {key : α} (h : key ∉ entries.map Prod.fst)
    (value : β) : set entries key value = entries ++ [(key, value)] := by
  induction entries with
  | nil => rfl
  | cons entry rest ih =>
    simp only [List.map_cons, List.mem_cons, not_or] at h
    rw [set_cons, if_neg (Ne.symm h.1), ih h.2]
    rfl

/-- Entries with different keys stay as they are. -/
theorem setAll_nil_of_nodup {news : List (α × β)} (h : (news.map Prod.fst).Nodup) :
    setAll [] news = news := by
  suffices hall : ∀ before : List (α × β), ((before ++ news).map Prod.fst).Nodup →
      setAll before news = before ++ news by
    exact hall [] h
  intro before hbefore
  induction news generalizing before with
  | nil => simp [setAll]
  | cons entry rest ih =>
    have hnew : entry.1 ∉ before.map Prod.fst := by
      rw [List.map_append, List.nodup_append] at hbefore
      exact fun hin => hbefore.2.2 _ hin _ (by simp) rfl
    have hset : set before entry.1 entry.2 = before ++ [entry] := set_of_not_mem hnew _
    have hrest := ih (List.nodup_cons.mp h).2 (before ++ [entry]) (by simpa using hbefore)
    simp only [setAll, List.foldl_cons] at hrest ⊢
    rw [hset, hrest]
    simp

end FunctionManifest.Assoc
