import FunctionManifest.Proofs.Relocation.Basic
import FunctionManifest.Proofs.Relocation.Ordinary
import FunctionManifest.Heap.Search
import FunctionManifest.Language.Access
import FunctionManifest.Language.Call
import FunctionManifest.Loading.Import

/-!
# Single objects

What is told from one value or one object is told alike at the new addresses. An address in the
answer is the new one.
-/

namespace FunctionManifest

variable {ρ : Relocation} {α β : Type}

/-! ## Collections of data -/

section

variable [Plain α]

@[simp] theorem moved_plainOption (a : Option α) : moved ρ a = a := by cases a <;> rfl

@[simp] theorem moved_plainResult {ε : Type} (result : Except ε α) : moved ρ result = result := by
  cases result <;> rfl

@[simp] theorem moved_plainList (items : List α) : moved ρ items = items := List.map_id _

end

section

variable [Relocatable α] [Relocatable β]

theorem moved_map {f : α → β} {f' : α → β} (items : List α)
    (h : ∀ a, f' (moved ρ a) = moved ρ (f a)) :
    (moved ρ items).map f' = moved ρ (items.map f) := by
  simp [moved_list, h]

theorem moved_option_map {f f' : α → β} (a : Option α) (h : ∀ a, f' (moved ρ a) = moved ρ (f a)) :
    (moved ρ a).map f' = moved ρ (a.map f) := by
  cases a <;> simp [h]

theorem moved_fixedResult {ε : Type} (h : ∀ a : α, moved ρ a = a) (result : Except ε α) :
    moved ρ result = result := by
  cases result with
  | error => rfl
  | ok a => rw [moved_ok, h]

@[simp] theorem moved_pure {ε : Type} (a : α) :
    moved ρ (pure a : Except ε α) = pure (moved ρ a) := rfl

@[simp] theorem moved_throw {ε : Type} (e : ε) : moved ρ (throw e : Except ε α) = throw e := rfl

theorem moved_bind {ε : Type} {f f' : α → Except ε β} (result : Except ε α)
    (h : ∀ a, f' (moved ρ a) = moved ρ (f a)) :
    (moved ρ result >>= f') = moved ρ (result >>= f) := by
  cases result with
  | error => rfl
  | ok a => exact h a

theorem moved_foldlM {ε : Type} {f f' : β → α → Except ε β} (items : List α) (start : β)
    (h : ∀ b a, f' (moved ρ b) (moved ρ a) = moved ρ (f b a)) :
    (moved ρ items).foldlM f' (moved ρ start) = moved ρ (items.foldlM f start) := by
  induction items generalizing start with
  | nil => rfl
  | cons a rest ih =>
    rw [moved_cons, List.foldlM_cons, List.foldlM_cons, h]
    exact moved_bind _ fun b => ih b

theorem moved_bound {ε : Type} {result result' : Except ε α} {f f' : α → Except ε β}
    (h : result' = moved ρ result) (hf : ∀ a, f' (moved ρ a) = moved ρ (f a)) :
    (result' >>= f') = moved ρ (result >>= f) := by
  subst h
  exact moved_bind result hf

theorem moved_ite {ε : Type} {c : Prop} [Decidable c] {a a' b b' : Except ε α} (ha : a' = moved ρ a)
    (hb : b' = moved ρ b) : (if c then a' else b') = moved ρ (if c then a else b) := by
  split
  · exact ha
  · exact hb

theorem moved_option_bind {f f' : α → Option β} (a : Option α)
    (h : ∀ a, f' (moved ρ a) = moved ρ (f a)) :
    (moved ρ a).bind f' = moved ρ (a.bind f) := by
  cases a <;> simp [h]

theorem moved_mapM {ε : Type} {f f' : α → Except ε β} (items : List α)
    (h : ∀ a, f' (moved ρ a) = moved ρ (f a)) :
    (moved ρ items).mapM f' = moved ρ (items.mapM f) := by
  induction items with
  | nil => rfl
  | cons a rest ih =>
    rw [moved_cons, List.mapM_cons, List.mapM_cons, h, ih]
    exact moved_bind _ fun b => moved_bind _ fun bs => rfl

/-- What is made of the items does not show where they are. -/
theorem mapM_moved {γ ε : Type} {f f' : α → Except ε γ} (items : List α)
    (h : ∀ a, f' (moved ρ a) = f a) :
    (moved ρ items).mapM f' = items.mapM f := by
  induction items with
  | nil => rfl
  | cons a rest ih => rw [moved_cons, List.mapM_cons, List.mapM_cons, h, ih]

theorem moved_anyM {ε : Type} {p p' : α → Except ε Bool} (items : List α)
    (h : ∀ v, p' (moved ρ v) = p v) :
    (moved ρ items).anyM p' = items.anyM p := by
  induction items with
  | nil => rfl
  | cons v rest ih => simp only [moved_cons, List.anyM, h, ih]

theorem moved_findM? {ε : Type} {p p' : α → Except ε Bool} (items : List α)
    (h : ∀ v, p' (moved ρ v) = p v) :
    (moved ρ items).findM? p' = moved ρ (items.findM? p) := by
  induction items with
  | nil => rfl
  | cons v rest ih =>
    simp only [moved_cons, List.findM?, h, ih]
    cases p v with
    | error => rfl
    | ok holds => cases holds <;> rfl

theorem moved_filterM {ε : Type} {p p' : α → Except ε Bool} (items : List α)
    (h : ∀ v, p' (moved ρ v) = p v) :
    (moved ρ items).filterM p' = moved ρ (items.filterM p) := by
  have haux : ∀ kept : List α, (moved ρ items).filterAuxM p' (moved ρ kept) =
      moved ρ (items.filterAuxM p kept) := by
    induction items with
    | nil => exact fun kept => rfl
    | cons v rest ih =>
      intro kept
      simp only [moved_cons, List.filterAuxM, h]
      cases p v with
      | error => rfl
      | ok holds =>
        cases holds with
        | false => exact ih kept
        | true => exact ih (v :: kept)
  unfold List.filterM
  rw [← moved_nil (ρ := ρ), haux]
  exact moved_bind _ fun kept => by simp [moved_list]

theorem moved_filter {p p' : α → Bool} (items : List α) (h : ∀ a, p' (moved ρ a) = p a) :
    (moved ρ items).filter p' = moved ρ (items.filter p) := by
  simp only [moved_list, List.filter_map]
  congr 2
  exact funext h

theorem moved_find? {f f' : α → Bool} (items : List α) (h : ∀ a, f' (moved ρ a) = f a) :
    (moved ρ items).find? f' = moved ρ (items.find? f) := by
  induction items with
  | nil => rfl
  | cons a rest ih =>
    rw [moved_cons, List.find?_cons, List.find?_cons, h, ih]
    cases f a <;> rfl

theorem moved_get? [BEq α] {key : α} (entries : List (α × β))
    (hkey : ∀ a, (moved ρ a == moved ρ key) = (a == key)) :
    Assoc.get? (moved ρ entries) (moved ρ key) = moved ρ (Assoc.get? entries key) := by
  unfold Assoc.get? Assoc.lookBy
  rw [moved_find? entries fun entry => hkey entry.1]
  exact moved_option_map _ fun entry => rfl

end

namespace Assoc

section

variable [Plain α] [BEq α] [Relocatable β]

@[simp] theorem moved_get? (entries : List (α × β)) (key : α) :
    get? (moved ρ entries) key = moved ρ (get? entries key) :=
  FunctionManifest.moved_get? entries fun _ => rfl

@[simp] theorem moved_contains (entries : List (α × β)) (key : α) :
    contains (moved ρ entries) key = contains entries key := by
  simp [contains, moved_list, List.any_map, Function.comp_def]
  rfl

@[simp] theorem moved_set (entries : List (α × β)) (key : α) (v : β) :
    set (moved ρ entries) key (moved ρ v) = moved ρ (set entries key v) := by
  unfold set
  induction entries with
  | nil => rfl
  | cons entry rest ih =>
    obtain ⟨k, w⟩ := entry
    simp only [moved_cons, moved_pair, moved_plain, putBy, ih]
    split <;> simp

@[simp] theorem moved_erase (entries : List (α × β)) (key : α) :
    erase (moved ρ entries) key = moved ρ (erase entries key) := by
  unfold erase
  rw [moved_list, List.filter_map]
  rfl

theorem moved_setAll (entries news : List (α × β)) :
    setAll (moved ρ entries) (moved ρ news) = moved ρ (setAll entries news) := by
  unfold setAll
  induction news generalizing entries with
  | nil => rfl
  | cons entry rest ih =>
    obtain ⟨k, w⟩ := entry
    rw [moved_cons, List.foldl_cons, List.foldl_cons, moved_pair, moved_plain, moved_set, ih]

@[simp] theorem moved_ofList (entries : List (α × β)) :
    ofList (moved ρ entries) = moved ρ (ofList entries) :=
  moved_setAll [] entries

end

end Assoc

/-! ## What an object is -/

@[simp] theorem moved_named (fields : Fields) :
    moved ρ (Value.named fields) = Value.named (moved ρ fields) := by
  simp [Value.named, moved_list]

theorem moved_mapText (items : List Text) :
    moved ρ (items.map Value.text) = items.map Value.text := by
  simp [moved_list]

@[simp] theorem moved_texts (items : List Text) :
    moved ρ (Value.texts items) = Value.texts items := by
  simp [Value.texts, moved_list]

namespace Value

@[simp] theorem moved_type (v : Value) : (moved ρ v).type = v.type := by cases v <;> simp [type]

@[simp] theorem moved_text? (v : Value) : (moved ρ v).text? = v.text? := by cases v <;> simp [text?]

@[simp] theorem moved_isNull (v : Value) :
    (moved ρ v).isNull = v.isNull := by cases v <;> simp [isNull]

@[simp] theorem moved_given? (v : Value) :
    (moved ρ v).given? = moved ρ v.given? := by cases v <;> simp [given?]

end Value

@[simp] theorem moved_field (name : String) (v : Value) :
    moved ρ (field name v) = field name (moved ρ v) := rfl

@[simp] theorem moved_fieldIf (name : String) (v : Option Value) :
    moved ρ (fieldIf name v) = fieldIf name (moved ρ v) := by
  cases v <;> simp [fieldIf]

@[simp] theorem moved_givenField (name : String) (v : Value) :
    moved ρ (given name v) = given name (moved ρ v) := by
  simp [given]

namespace Formula

@[simp] theorem moved_label (f : Formula) : (moved ρ f).label = f.label := by cases f <;> rfl

@[simp] theorem moved_parts (f : Formula) :
    (moved ρ f).parts = moved ρ f.parts := by cases f <;> rfl

end Formula

namespace Prompt

@[simp] theorem moved_label (p : Prompt) : (moved ρ p).label = p.label := by cases p <;> rfl

@[simp] theorem moved_parts (p : Prompt) : (moved ρ p).parts = moved ρ p.parts := by cases p <;> rfl

end Prompt

namespace Cell

@[simp] theorem moved_parts? (cell : Cell) : (moved ρ cell).parts? = moved ρ cell.parts? := by
  cases cell with
  | formula f => cases f <;> rfl
  | prompt p => cases p <;> rfl
  | _ => rfl

@[simp] theorem moved_type (cell : Cell) : (moved ρ cell).type = cell.type := by
  cases cell with
  | formula f => cases f <;> rfl
  | prompt p => cases p <;> rfl
  | method m self => cases self <;> rfl
  | _ => rfl

@[simp] theorem moved_constructor? (cell : Cell) :
    (moved ρ cell).constructor? = cell.constructor? := by
  cases cell with
  | formula f => cases f <;> rfl
  | prompt p => cases p <;> rfl
  | _ => rfl

@[simp] theorem moved_methods (cell : Cell) : (moved ρ cell).methods = cell.methods := by
  have h := moved_constructor? (ρ := ρ) cell
  cases cell with
  | list | mapping => rfl
  | _ => exact congrArg (fun b => (b.map Method.ofConstructor).getD []) h

@[simp] theorem moved_mark? (cell : Cell) : (moved ρ cell).mark? = cell.mark? := by
  have h := moved_parts? (ρ := ρ) cell
  cases cell with
  | formula f => cases f <;> rfl
  | _ => rfl

@[simp] theorem moved_attributes (cell : Cell) :
    (moved ρ cell).attributes = moved ρ cell.attributes := by
  cases cell <;> rfl

@[simp] theorem moved_calledName? (cell : Cell) :
    (moved ρ cell).calledName? = moved ρ cell.calledName? := by
  cases cell with
  | callable label named => cases named <;> rfl
  | _ => rfl

@[simp] theorem moved_declaredName? (cell : Cell) :
    (moved ρ cell).declaredName? = cell.declaredName? := by
  cases cell with
  | param | secret => simp [declaredName?]
  | _ => rfl

@[simp] theorem moved_typesOf (cell : Cell) : (moved ρ cell).typesOf = cell.typesOf := by
  have h := moved_type (ρ := ρ) cell
  cases cell with
  | formula f => cases f <;> rfl
  | prompt | method => simpa [typesOf] using h
  | _ => rfl

@[simp] theorem moved_computedNames (cell : Cell) :
    (moved ρ cell).computedNames = cell.computedNames := by
  cases cell <;> rfl

@[simp] theorem moved_typeNames (cell : Cell) : (moved ρ cell).typeNames = cell.typeNames := by
  unfold typeNames
  rw [moved_methods]
  cases cell <;> rfl

end Cell

@[simp] theorem moved_moduleName? (attributes : Fields) :
    moduleName? (moved ρ attributes) = moduleName? attributes := by
  unfold moduleName?
  rw [Assoc.moved_get?]
  cases Assoc.get? attributes (Text.ofString "__name__") with
  | none => rfl
  | some v => cases v <;> simp

@[simp] theorem moved_lookup (parts : List (String × Value)) (name : String) :
    (moved ρ parts).lookup name = moved ρ (parts.lookup name) := by
  induction parts with
  | nil => rfl
  | cons part rest ih =>
    obtain ⟨known, v⟩ := part
    rw [moved_cons, moved_pair, moved_plain, List.lookup_cons, List.lookup_cons, ih]
    split <;> rfl

@[simp] theorem Param.moved_stored? (p : Param) (name : String) :
    (moved ρ p).stored? name = moved ρ (p.stored? name) := by
  unfold stored?
  split <;> simp
  split <;> rfl

@[simp] theorem Secret.moved_stored? (s : Secret) (name : String) :
    (moved ρ s).stored? name = moved ρ (s.stored? name) := by
  unfold stored?
  split <;> simp

namespace Cell

@[simp] theorem moved_fixed? (cell : Cell) (name : String) :
    (moved ρ cell).fixed? name = moved ρ (cell.fixed? name) := by
  fun_cases fixed? cell name with
  | case1 p => exact p.moved_stored? name
  | case2 s => exact s.moved_stored? name
  | case3 | case4 | case5 | case6 | case7 | case8 | case9 => rfl
  | case10 =>
    rw [← moved_calledName?]
    cases cell with
    | builtin b => cases b <;> rfl
    | param | secret => simp_all
    | _ => rfl
  | case11 =>
    have hparts : moved ρ (cell.parts?.bind (·.lookup name)) =
        (moved ρ cell).parts?.bind (·.lookup name) := by
      rw [moved_parts?]
      exact (moved_option_bind _ fun parts => moved_lookup parts name).symm
    rw [hparts]
    clear hparts
    cases cell with
    | builtin b => cases b <;> simp_all [fixed?]
    | _ => simp_all [fixed?]

@[simp] theorem moved_stored? (cell : Cell) (name : Text) :
    (moved ρ cell).stored? name = moved ρ (cell.stored? name) := by
  unfold stored?
  rw [moved_attributes, Assoc.moved_get?, moved_fixed?]
  cases Assoc.get? cell.attributes name <;> rfl

end Cell

end FunctionManifest
