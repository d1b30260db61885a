import FunctionManifest.Proofs.Relocation.Cell

/-!
# Looking at objects

Objects are looked up, compared and gone through by what is kept, so that the same is found at the
new addresses. Two objects are one there if and only if they were.
-/

namespace FunctionManifest

variable {ρ : Relocation} {heap heap' : Heap}

/-! ## What every source shares -/

section

variable {α β : Type} [Relocatable α] [Relocatable β]

namespace Assoc

variable {same same' : α → α → Bool}

theorem moved_putBy (h : ∀ a b, same' (moved ρ a) (moved ρ b) = same a b) (entries : List (α × β))
    (key : α) (v : β) :
    putBy same' (moved ρ entries) (moved ρ key) (moved ρ v) =
      moved ρ (putBy same entries key v) := by
  induction entries with
  | nil => rfl
  | cons entry rest ih =>
    obtain ⟨k, w⟩ := entry
    simp only [moved_cons, moved_pair, putBy, h, ih]
    split <;> simp

theorem moved_lookBy (h : ∀ a b, same' (moved ρ a) (moved ρ b) = same a b) (entries : List (α × β))
    (key : α) :
    lookBy same' (moved ρ entries) (moved ρ key) = moved ρ (lookBy same entries key) := by
  unfold lookBy
  rw [moved_find? entries fun entry => h entry.1 key]
  exact moved_option_map _ fun entry => rfl

end Assoc

end

theorem moved_shared {a : Nat} (h : a ≤ Heap.firstNative) (hother : a ≠ 1) :
    moved ρ (Value.ref a) = .ref a := by
  rw [moved_ref, ρ.shared a h hother]

namespace Heap

@[simp] theorem moved_emptyTuple :
    moved ρ emptyTuple = emptyTuple := moved_shared (by decide) (by decide)
@[simp] theorem moved_messagingApi :
    moved ρ messagingApi = messagingApi := moved_shared (by decide) (by decide)
@[simp] theorem moved_schedulerApi :
    moved ρ schedulerApi = schedulerApi := moved_shared (by decide) (by decide)

theorem firstConstant_lt : 1 < firstConstant := by decide

theorem firstBuiltin_eq : firstBuiltin = firstConstant + Constant.all.length := rfl
theorem firstModule_eq : firstModule = firstBuiltin + Builtin.all.length := rfl
theorem firstNative_eq : firstNative = firstModule + Export.moduleNames.length := rfl

@[simp] theorem moved_constant (c : Constant) : moved ρ (constant c) = constant c := by
  have h := Constant.all.idxOf_le_length (a := c)
  have h' := firstConstant_lt
  refine moved_shared ?_ (by omega)
  rw [firstNative_eq, firstModule_eq, firstBuiltin_eq]
  omega

@[simp] theorem moved_builtin (b : Builtin) : moved ρ (builtin b) = builtin b := by
  have h := Builtin.all.idxOf_le_length (a := b)
  have h' := firstConstant_lt
  refine moved_shared ?_ (by rw [firstBuiltin_eq]; omega)
  rw [firstNative_eq, firstModule_eq]
  omega

@[simp] theorem moved_exportedModule (name : String) :
    moved ρ (exportedModule name) = exportedModule name := by
  have h := Export.moduleNames.idxOf_le_length (a := name)
  have h' := firstConstant_lt
  refine moved_shared ?_ (by rw [firstModule_eq, firstBuiltin_eq]; omega)
  rw [firstNative_eq]
  omega

@[simp] theorem moved_exported (e : Export) : moved ρ (exported e) = exported e := by
  cases e with
  | native label => exact moved_shared (Nat.le_refl _) (by decide)
  | _ => simp [exported]

/-! ## Looking up -/

variable [Heap.Moved ρ heap heap']

@[simp] theorem moved_cell? (v : Value) : heap'.cell? (moved ρ v) = moved ρ (heap.cell? v) := by
  cases v with
  | ref a => exact Moved.cells a
  | _ => simp [cell?]

@[simp] theorem moved_content (v : Value) :
    heap'.content (moved ρ v) = moved ρ (heap.content v) := by
  unfold content
  rw [moved_cell?]
  cases heap.cell? v with
  | none => rfl
  | some cell => cases cell <;> simp

@[simp] theorem moved_type (v : Value) : heap'.type (moved ρ v) = heap.type v := by
  unfold type
  rw [moved_cell?]
  cases heap.cell? v <;> simp

theorem mem_moved_way {a : Nat} {way : List Nat} : ρ.address a ∈ way.map ρ.address ↔ a ∈ way := by
  simp [ρ.address_injective.eq_iff]

omit [Heap.Moved ρ heap heap'] in
theorem moved_enter? (way : List Nat) (v : Value) :
    enter? (way.map ρ.address) (moved ρ v) = (enter? way v).map (List.map ρ.address) := by
  cases v with
  | ref a =>
    simp only [moved_ref, enter?, mem_moved_way]
    split <;> rfl
  | _ => simp [enter?]

end Heap

/-! ## Equality -/

@[simp] theorem moved_binary64_beq (x y : Binary64) : (moved ρ x == moved ρ y) = (x == y) := by
  cases x <;> cases y <;> simp [Relocatable.moved, Binary64.relocated, ρ.undefined_injective.eq_iff]

@[simp] theorem moved_isInt (x : Binary64) (n : Int) : (moved ρ x).isInt n = x.isInt n := by
  cases x <;> rfl

@[simp] theorem moved_same (x y : Binary64) : (moved ρ x).same (moved ρ y) = x.same y := by
  cases x <;> cases y <;> rfl

@[simp] theorem moved_binary64_text (x : Binary64) : (moved ρ x).text = x.text := by
  cases x <;> rfl

namespace Value

mutual

theorem moved_beq : (v w : Value) → beq (moved ρ v) (moved ρ w) = beq v w
  | .list items, w => by cases w <;> simp [beq, moved_beqItems items]
  | .tuple items, w => by cases w <;> simp [beq, moved_beqItems items]
  | .mapping entries, w => by cases w <;> simp [beq, moved_beqEntries entries]
  | .ref a, w => by cases w <;> simp [beq, ρ.address_injective.eq_iff]
  | .null, w | .bool _, w | .int _, w | .float _, w | .text _, w => by cases w <;> simp [beq]

theorem moved_beqItems :
    (items others : List Value) → beqItems (moved ρ items) (moved ρ others) = beqItems items others
  | [], [] | [], _ :: _ | _ :: _, [] => rfl
  | v :: items, w :: others => by simp [beqItems, moved_beq v w, moved_beqItems items others]

theorem moved_beqEntries :
    (entries others : Entries) → beqEntries (moved ρ entries) (moved ρ others) =
    beqEntries entries others
  | [], [] | [], _ :: _ | _ :: _, [] => rfl
  | (k, v) :: entries, (k', w) :: others => by
    simp [beqEntries, moved_beq k k', moved_beq v w, moved_beqEntries entries others]

end

@[simp] theorem moved_beq_moved (v w : Value) : (moved ρ v == moved ρ w) = (v == w) := moved_beq v w

@[simp] theorem moved_identical (v w : Value) :
    (moved ρ v).identical (moved ρ w) = v.identical w := by
  cases v <;> cases w <;> simp [identical, ρ.address_injective.eq_iff]

@[simp] theorem moved_sameAtom (v w : Value) : (moved ρ v).sameAtom (moved ρ w) = v.sameAtom w := by
  cases v <;> cases w <;> simp [sameAtom, number?, sameNumber]

end Value

instance : Relocatable Comparable where
  moved ρ
    | .atom v => .atom (moved ρ v)
    | .parts shape items => .parts shape (moved ρ items)
    | .entries entries => .entries (moved ρ entries)
    | .identity address => .identity (ρ.address address)

@[simp] theorem moved_atom (v : Value) : moved ρ (Comparable.atom v) = .atom (moved ρ v) := rfl
@[simp] theorem moved_comparableParts (shape : Shape) (items : List Value) :
    moved ρ (Comparable.parts shape items) = .parts shape (moved ρ items) := rfl
@[simp] theorem moved_comparableEntries (entries : Entries) :
    moved ρ (Comparable.entries entries) = .entries (moved ρ entries) := rfl
@[simp] theorem moved_identity (a : Nat) :
    moved ρ (Comparable.identity a) = .identity (ρ.address a) := rfl

namespace Heap

section

variable {same same' : Value → Value → Except Failure Bool}
    (h : ∀ v w, same' (moved ρ v) (moved ρ w) = same v w)

include h

theorem moved_sameItem (v w : Value) :
    sameItem same' (moved ρ v) (moved ρ w) = sameItem same v w := by
  unfold sameItem
  rw [Value.moved_identical, h]

theorem moved_sameItems (items others : List Value) :
    sameItems same' (moved ρ items) (moved ρ others) = sameItems same items others := by
  induction items generalizing others with
  | nil => cases others <;> rfl
  | cons v rest ih =>
    cases others with
    | nil => rfl
    | cons w others =>
      simp only [moved_cons, sameItems, moved_sameItem h, ih]

theorem moved_hasEntry (entry : Value × Value) (others : Entries) :
    hasEntry same' (moved ρ entry) (moved ρ others) = hasEntry same entry others := by
  induction others with
  | nil => rfl
  | cons other rest ih =>
    obtain ⟨k, v⟩ := entry
    obtain ⟨k', w⟩ := other
    simp only [moved_cons, moved_pair, hasEntry, moved_sameItem h] at ih ⊢
    rw [ih]

theorem moved_sameEntries (others entries : Entries) :
    sameEntries same' (moved ρ others) (moved ρ entries) = sameEntries same others entries := by
  induction entries with
  | nil => rfl
  | cons entry rest ih => simp only [moved_cons, sameEntries, moved_hasEntry h, ih]

end

variable [Heap.Moved ρ heap heap']

theorem moved_comparable (v : Value) :
    heap'.comparable (moved ρ v) = moved ρ (heap.comparable v) := by
  cases v with
  | ref a =>
    have hcell : heap'.cells[ρ.address a]? = moved ρ heap.cells[a]? := Moved.cells a
    simp only [moved_ref, comparable, hcell]
    cases heap.cells[a]? with
    | none => rfl
    | some cell =>
      cases cell with
      | formula f => cases f <;> rfl
      | prompt p => cases p <;> rfl
      | record fields => simp [moved_list]
      | _ => rfl
  | _ => simp [comparable]

theorem moved_sameFrom (fuel : Nat) (v w : Value) :
    heap'.sameFrom fuel (moved ρ v) (moved ρ w) = heap.sameFrom fuel v w := by
  induction fuel generalizing v w with
  | zero => rfl
  | succ fuel ih =>
    unfold sameFrom
    rw [moved_comparable, moved_comparable]
    cases heap.comparable v <;> cases heap.comparable w <;>
      simp [moved_sameItems ih, moved_sameEntries ih, ρ.address_injective.eq_iff]

@[simp] theorem moved_same (v w : Value) :
    heap'.same (moved ρ v) (moved ρ w) = heap.same v w := moved_sameFrom depth v w

@[simp] theorem moved_sameInside (v w : Value) :
    heap'.sameInside (moved ρ v) (moved ρ w) = heap.sameInside v w :=
  moved_sameItem moved_same v w

@[simp] theorem moved_sameKey (v w : Value) :
    heap'.sameKey (moved ρ v) (moved ρ w) = heap.sameKey v w := by
  simp [sameKey]

@[simp] theorem moved_isOne (v w : Value) :
    heap'.isOne (moved ρ v) (moved ρ w) = heap.isOne v w := by
  unfold isOne
  rw [moved_cell?, moved_cell?, Value.moved_identical]
  cases heap.cell? v with
  | none => rfl
  | some cell =>
    cases cell with
    | regex source =>
      cases heap.cell? w with
      | none => rfl
      | some cell => cases cell <;> rfl
    | _ => rfl

omit [Heap.Moved ρ heap heap'] in
@[simp] theorem moved_floatHash (x : Binary64) : floatHash (moved ρ x) = moved ρ (floatHash x) := by
  cases x <;> rfl

theorem moved_hashFrom (fuel : Nat) (v : Value) :
    heap'.hashFrom fuel (moved ρ v) = moved ρ (heap.hashFrom fuel v) := by
  induction fuel generalizing v with
  | zero => rfl
  | succ fuel ih =>
    unfold hashFrom
    rw [moved_comparable]
    cases heap.comparable v with
    | atom v =>
      cases v with
      | text t => cases t <;> simp
      | _ => simp
    | entries | identity => rfl
    | parts shape items =>
      have hmany : (do return Value.tuple (← (moved ρ items).mapM (heap'.hashFrom fuel))) =
          moved ρ (do return Value.tuple (← items.mapM (heap.hashFrom fuel))) := by
        rw [moved_mapM items ih]
        exact moved_bind _ fun hashes => congrArg pure (moved_valueTuple hashes).symm
      cases shape with
      | list | record => rfl
      | tuple | regex | frozen => exact hmany
      | pattern =>
        cases items with
        | nil => rfl
        | cons segments rest =>
          cases rest with
          | nil => exact ih segments
          | cons => exact hmany

@[simp] theorem moved_hash (v : Value) :
    heap'.hash (moved ρ v) = moved ρ (heap.hash v) := moved_hashFrom depth v

@[simp] theorem moved_checkKey (v : Value) : heap'.checkKey (moved ρ v) = heap.checkKey v := by
  unfold checkKey
  rw [moved_hash]
  cases heap.hash v <;> rfl

@[simp] theorem moved_putEntry (entries : Entries) (key v : Value) :
    heap'.putEntry (moved ρ entries) (moved ρ key) (moved ρ v) =
      moved ρ (heap.putEntry entries key v) := by
  unfold putEntry
  rw [moved_checkKey, Assoc.moved_putBy moved_sameKey]
  cases heap.checkKey key <;> rfl

@[simp] theorem moved_lookEntry (entries : Entries) (key : Value) :
    heap'.lookEntry (moved ρ entries) (moved ρ key) = moved ρ (heap.lookEntry entries key) := by
  unfold lookEntry
  rw [moved_checkKey, Assoc.moved_lookBy moved_sameKey]
  cases heap.checkKey key <;> rfl

theorem moved_lookEntry_text (entries : Entries) (key : Text) :
    heap'.lookEntry (moved ρ entries) (.text key) = moved ρ (heap.lookEntry entries (.text key)) :=
  moved_lookEntry entries (.text key)

/-! ## Collections -/

@[simp] theorem moved_items? (v : Value) : heap'.items? (moved ρ v) = moved ρ (heap.items? v) := by
  unfold items?
  rw [moved_content]
  cases heap.content v with
  | mapping entries => simp [moved_list]
  | text t => simp [moved_list, Value.letter]
  | list | tuple => simp
  | ref a =>
    have hcell : heap'.cell? (moved ρ (.ref a)) = moved ρ (heap.cell? (.ref a)) := moved_cell? _
    simp only [moved_ref] at hcell ⊢
    rw [hcell]
    cases heap.cell? (.ref a) with
    | none => rfl
    | some cell => cases cell <;> rfl
  | _ => rfl

@[simp] theorem moved_items (v : Value) : heap'.items (moved ρ v) = moved ρ (heap.items v) := by
  unfold items
  rw [moved_items?, moved_type]
  cases heap.items? v <;> rfl

@[simp] theorem moved_entries? (v : Value) :
    heap'.entries? (moved ρ v) = moved ρ (heap.entries? v) := by
  unfold entries?
  rw [moved_content]
  cases heap.content v <;> simp

@[simp] theorem moved_size? (v : Value) : heap'.size? (moved ρ v) = heap.size? v := by
  unfold size?
  rw [moved_items?]
  cases heap.items? v <;> simp

@[simp] theorem moved_isTruthy (v : Value) : heap'.isTruthy (moved ρ v) = heap.isTruthy v := by
  have h : heap'.size? (moved ρ v) = heap.size? v := moved_size? v
  cases v <;> simp_all [isTruthy]

@[simp] theorem moved_textItems (index : Nat) (items : List Value) :
    heap'.textItems index (moved ρ items) = heap.textItems index items := by
  induction items generalizing index with
  | nil => rfl
  | cons v rest ih =>
    have h : heap'.type (moved ρ v) = heap.type v := moved_type v
    cases v <;> simp_all [textItems]

@[simp] theorem moved_joined (separator : Text) (items : List Value) :
    heap'.joined separator (moved ρ items) = heap.joined separator items := by
  simp [joined]

theorem moved_entryAt (index : Nat) (v : Value) :
    heap'.entryAt index (moved ρ v) = moved ρ (heap.entryAt index v) := by
  unfold entryAt
  rw [moved_items?]
  cases heap.items? v with
  | none => rfl
  | some items =>
    rcases items with _ | ⟨key, _ | ⟨v, _ | ⟨w, rest⟩⟩⟩
    · rfl
    · rfl
    · rfl
    · simp

theorem moved_entriesFrom (index : Nat) (before : Entries) (items : List Value) :
    heap'.entriesFrom index (moved ρ before) (moved ρ items) =
      moved ρ (heap.entriesFrom index before items) := by
  induction items generalizing index before with
  | nil => rfl
  | cons item rest ih =>
    rw [moved_cons, entriesFrom, entriesFrom, moved_entryAt]
    refine moved_bind _ fun entry => ?_
    obtain ⟨key, v⟩ := entry
    simp only [moved_pair]
    rw [moved_putEntry]
    exact moved_bind _ fun entries => ih _ _

@[simp] theorem moved_dictionary (v : Value) :
    heap'.dictionary (moved ρ v) = moved ρ (heap.dictionary v) := by
  unfold dictionary
  rw [moved_entries?, moved_items]
  cases heap.entries? v with
  | none => exact moved_bind _ fun items => moved_entriesFrom 0 [] items
  | some entries => rfl

@[simp] theorem moved_pairOf (v : Value) : heap'.pair (moved ρ v) = moved ρ (heap.pair v) := by
  unfold pair
  rw [moved_items?, moved_type]
  cases heap.items? v with
  | none => rfl
  | some items =>
    rcases items with _ | ⟨key, _ | ⟨v, _ | ⟨w, rest⟩⟩⟩
    · rfl
    · rfl
    · rfl
    · simp

/-! ## Attributes -/

omit [Heap.Moved ρ heap heap'] in
@[simp] theorem moved_exportedName? (name : Text) :
    moved ρ (exportedName? name) = exportedName? name := by
  unfold exportedName?
  cases Export.onDemand.find? (name = ·.1) <;> simp

omit [Heap.Moved ρ heap heap'] in
theorem moved_beq_exported (v : Value) (name : String) :
    (moved ρ v == exportedModule name) = (v == exportedModule name) := by
  rw [← Value.moved_beq_moved v, moved_exportedModule]

@[simp] theorem moved_stored? (v : Value) (name : Text) :
    heap'.stored? (moved ρ v) name = moved ρ (heap.stored? v name) := by
  unfold stored?
  rw [moved_cell?, moved_beq_exported, moved_option_bind _ fun cell => cell.moved_stored? name]
  cases (heap.cell? v).bind (·.stored? name) with
  | some found => rfl
  | none =>
    simp only [moved_none, Option.orElse_none]
    split <;> simp

@[simp] theorem moved_missing (v : Value) (name : Text) :
    heap'.missing (moved ρ v) name = heap.missing v name := by
  unfold missing
  rw [moved_beq_exported, moved_cell?, moved_type]
  cases heap.cell? v with
  | none => rfl
  | some cell => cases cell <;> simp

end Heap

end FunctionManifest
