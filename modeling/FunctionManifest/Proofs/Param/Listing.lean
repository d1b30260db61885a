import FunctionManifest.Proofs.Language.Describing
import FunctionManifest.Proofs.Manifest.RequiredApi
import FunctionManifest.Proofs.Param.Fallback
import FunctionManifest.Proofs.Text.Separated

/-!
# Lists in one text

A list is written with a comma between its items, and is read from a text with commas, behind which
blanks are dropped. Both undo each other for the items that a text can give, and for no others.
-/

namespace FunctionManifest

/-- Items as a text gives them: commas and the blanks behind them stand between the items. -/
structure Separable (items : List Text) : Prop where
  comma : ∀ item ∈ items, Letter.char ',' ∉ item
  blank : ∀ item ∈ items.tail, ∀ c ∈ item.head?, Text.isBlank c = false

section

variable {items : List Text} {raw : Text}

/-! ## Splitting what was joined -/

/-- A text without a comma is one piece, so there always is a first one. -/
theorem exists_readList (raw : Text) :
    ∃ first rest, Text.split ',' raw = first :: rest ∧
      readList raw = first :: rest.map (·.dropWhile Text.isBlank) := by
  have hne : Text.split ',' raw ≠ [] := by
    rw [Text.split_eq_splitOn]
    exact List.splitOn_ne_nil (Letter.char ',') raw
  obtain ⟨first, rest, hsplit⟩ := List.exists_cons_of_ne_nil hne
  exact ⟨first, rest, hsplit, by rw [readList, hsplit]⟩

theorem separable_readList (raw : Text) : Separable (readList raw) := by
  obtain ⟨first, rest, hsplit, hread⟩ := exists_readList raw
  have hpieces : ∀ item ∈ first :: rest, Letter.char ',' ∉ item := fun item hitem =>
    Text.not_mem_of_mem_split (hsplit ▸ hitem)
  obtain ⟨hfirst, hrest⟩ := List.forall_mem_cons.mp hpieces
  rw [hread]
  constructor
  · intro item hitem
    rcases List.mem_cons.mp hitem with rfl | hitem
    · exact hfirst
    · obtain ⟨piece, hpiece, rfl⟩ := List.mem_map.mp hitem
      intro hcomma
      exact hrest piece hpiece ((List.dropWhile_sublist _).subset hcomma)
  · intro item hitem c hc
    obtain ⟨piece, -, rfl⟩ := List.mem_map.mp hitem
    exact Text.of_head?_dropWhile hc

theorem readList_join (hne : items ≠ []) (h : Separable items) :
    readList (Text.join "," items) = items := by
  obtain ⟨first, rest, hsplit, hread⟩ := exists_readList (Text.join "," items)
  obtain rfl : items = first :: rest :=
    (Text.split_join_of_not_mem hne h.comma).symm.trans hsplit
  have hrest : rest.map (·.dropWhile Text.isBlank) = rest := by
    refine (List.map_congr_left fun item hitem => ?_).trans (List.map_id rest)
    exact Text.dropWhile_eq_self (h.blank item hitem)
  rw [hread, hrest]

theorem readList_join_iff (hne : items ≠ []) :
    readList (Text.join "," items) = items ↔ Separable items := by
  constructor
  · intro hsame
    exact hsame ▸ separable_readList _
  · intro h
    exact readList_join hne h

/-- What was read from a text is read again from the items joined. -/
theorem readList_join_readList (raw : Text) :
    readList (Text.join "," (readList raw)) = readList raw := by
  obtain ⟨first, rest, -, hread⟩ := exists_readList raw
  apply readList_join
  · rw [hread]
    exact List.cons_ne_nil _ _
  · exact separable_readList raw

/-! ## Empty texts -/

theorem join_eq_nil_iff : Text.join "," items = [] ↔ items = [] ∨ items = [[]] := by
  constructor
  · intro hempty
    match items with
    | [] => exact .inl rfl
    | [item] => exact .inr (by simpa [Text.join] using hempty)
    | item :: next :: rest =>
      rw [Text.join, List.intercalate_cons_cons] at hempty
      simp [Text.ofString, Text.ofChars] at hempty
  · rintro (rfl | rfl) <;> rfl

/-- Nothing is joined to no text but nothing: these items come back as the default. -/
theorem separable_of_join_eq_nil (h : Text.join "," items = []) : Separable items := by
  rcases join_eq_nil_iff.mp h with rfl | rfl
  · exact ⟨nofun, nofun⟩
  · exact ⟨by simp, nofun⟩

theorem join_readList_ne_nil (h : raw ≠ []) : Text.join "," (readList raw) ≠ [] := by
  obtain ⟨first, rest, hsplit, hread⟩ := exists_readList raw
  intro hempty
  rw [join_eq_nil_iff, hread] at hempty
  obtain ⟨rfl, hrest⟩ : first = [] ∧ rest = [] := by simpa using hempty
  apply h
  rw [← Text.join_split ',' raw, hsplit, hrest]
  rfl

end

open Eval

/-! ## The default in a spec -/

section

variable {heap : Heap} {v : Value} {p : Param} {items : List Text} {label : Text} {fuel : Nat}

theorem isTruthy_of_items? {values : List Value} (h : heap.items? v = some values) :
    heap.isTruthy v = (values.length != 0) := by
  cases v with
  | null | bool | int | float => cases h
  | _ => simp [Heap.isTruthy, Heap.size?, h]

theorem specDefault_list (hkind : p.kind = .list)
    (hitems : heap.items? p.default = some (items.map .text)) :
    p.specDefault heap = .ok (.text (Text.join "," items)) := by
  have hnull : p.default.isNull = false := by
    cases hvalue : p.default with
    | null =>
      rw [hvalue] at hitems
      cases hitems
    | _ => rfl
  unfold Param.specDefault
  rw [if_pos ⟨hkind, by simp [hnull]⟩, isTruthy_of_items? hitems]
  cases items with
  | nil => rfl
  | cons item rest =>
    simp only [hitems, Heap.joined, Heap.textItems_texts]
    rfl

theorem makes_listSpec (hlabel : p.name = .text label) (hkind : p.kind = .list)
    (hitems : heap.items? p.default = some (items.map .text))
    (hprompt : p.input = .null ∨ heap.IsPrompt p.input) :
    Makes heap (paramSpec (callValue (fuel + 2)) p) fun after spec =>
      ∃ entries, after.cell? spec = some (.mapping entries) ∧
        after.lookEntry entries (.text "default") =
          .ok (some (.text (Text.join "," items))) := by
  refine (makes_reading _).bind fun mid default hmid hdefault => ?_
  rw [specDefault_list hkind (hmid.items? hitems), Except.ok.injEq] at hdefault
  subst hdefault
  refine (makes_inputSpec (hprompt.imp_right fun h => h.mono hmid)).bind fun _ prompt _ _ => ?_
  let known : List (Text × Text) :=
    [("name", label), ("type", p.kind.valueType), ("default", Text.join "," items)]
  have hspec : p.spec (.text (Text.join "," items)) prompt =
      .mapping ((known.map fun t => (.text t.1, .text t.2)) ++
        (given "label" p.label ++ given "description" p.description ++ fieldIf "input" prompt).map
          fun field => (.text field.1, field.2)) := by
    rw [Param.spec, hlabel]
    rfl
  rw [hspec]
  apply (makes_intern_beginning (Value.isKept_texts known) _).imp
  rintro after spec - ⟨others, hcell⟩
  refine ⟨_, hcell, ?_⟩
  rw [Heap.lookEntry_text]
  rfl

theorem makes_specOf_list (hcell : heap.cell? v = some (.param p)) (hlabel : p.name = .text label)
    (hkind : p.kind = .list) (hitems : heap.items? p.default = some (items.map .text))
    (hprompt : p.input = .null ∨ heap.IsPrompt p.input) :
    Makes heap (specOf (callValue (fuel + 3)) v) fun after spec =>
      ∃ entries, after.cell? spec = some (.mapping entries) ∧
        after.lookEntry entries (.text "default") =
          .ok (some (.text (Text.join "," items))) := by
  have hmethod : Method.named? (Method.ofParam p.kind) "to_spec" = some .paramSpec := by
    rw [hkind]
    rfl
  apply makes_specOf hcell rfl rfl hmethod rfl
  simp only [runMethod, onlySelf_get]
  refine (makes_asParam hcell _).bind fun later found hlater hfound => ?_
  rw [hfound]
  exact makes_listSpec hlabel hkind (hlater.items? hitems)
    (hprompt.imp_right fun h => h.mono hlater)

theorem returns_specOf_list (hcell : heap.cell? v = some (.param p)) (hlabel : p.name = .text label)
    (hkind : p.kind = .list) (hitems : heap.items? p.default = some (items.map .text))
    (hprompt : p.input = .null ∨ heap.IsPrompt p.input) :
    Returns heap (specOf (callValue (fuel + 3)) v) := by
  have hdeclared : heap.declaredName? v = some label := by
    simp [Heap.declaredName?, hcell, Cell.declaredName?, hlabel, Value.text?]
  apply returns_declaredSpec hdeclared
  intro p' hp'
  obtain rfl : p = p' := by simpa [hcell] using hp'
  exact ⟨by simp [hkind], fun _ => .inr ⟨items, hitems⟩, hprompt⟩

end

/-! ## Reading what was written -/

/-- The session where these variables are set. -/
def Session.inEnvironment (s : Session) (environment : Environment) : Session :=
  { s with environment }

/-- Reading the value gives a list of these texts. -/
def ReadsTexts (call : Caller) (s : Session) (v : Value) (items : List Text) (t : Session) :
    Prop :=
  ∃ w, (getAttribute call v "value").on s = (.ok w, t) ∧
    t.heap.cell? w = some (.list (items.map .text))

section

variable {call : Caller} {s : Session} {v : Value} {p : Param} {items : List Text}
  {label name raw : Text} {environment : Environment} {fuel : Nat}

section

variable (hcell : s.heap.cell? v = some (.param p)) (hkind : p.kind = .list)
  (hlabel : p.name = .text label) (hname : Environment.keep label = .ok name)

include hcell hkind

theorem exists_readsTexts (hread : p.readListParam s.heap environment = .ok (.texts items)) :
    ∃ t, ReadsTexts call (s.inEnvironment environment) v items t ∧ t.heap.Extends s.heap := by
  have hreading : (p.read s.heap (printed call) environment).on (s.inEnvironment environment) =
      (.ok (.ok (.texts items)), s.inEnvironment environment) := by
    simp only [Param.read, hkind, hread]
    rfl
  exact ⟨_, ⟨_, on_value_of_texts hcell hreading, Heap.cell?_allocate_new _ _⟩,
    Heap.extends_allocate _ _⟩

include hlabel hname

theorem readsTexts_of_set (hset : Assoc.get? environment name = some raw) (hne : raw ≠ []) :
    ∃ t, ReadsTexts call (s.inEnvironment environment) v (readList raw) t ∧
      t.heap.Extends s.heap := by
  have htext : environment.text? name = some raw := by simp [Environment.text?, hset, hne]
  exact exists_readsTexts hcell hkind (readListParam_of_set hlabel hname htext)

theorem readsTexts_of_empty (hset : Assoc.get? environment name = some [])
    (hitems : s.heap.items? p.default = some (items.map .text)) :
    ∃ t, ReadsTexts call (s.inEnvironment environment) v items t ∧ t.heap.Extends s.heap :=
  exists_readsTexts hcell hkind
    (readListParam_of_unset hlabel hname (text?_of_unset (.inr hset)) hitems)

/-- A default that is joined to an empty text is read itself, since that counts as unset. -/
theorem exists_reads_joined (hitems : s.heap.items? p.default = some (items.map .text))
    (hset : Assoc.get? environment name = some (Text.join "," items)) :
    ∃ found t, ReadsTexts call (s.inEnvironment environment) v found t ∧
      (found = items ↔ Separable items) := by
  by_cases hempty : Text.join "," items = []
  · rw [hempty] at hset
    obtain ⟨t, hreads, -⟩ := readsTexts_of_empty hcell hkind hlabel hname hset hitems
    exact ⟨items, t, hreads, fun _ => separable_of_join_eq_nil hempty, fun _ => rfl⟩
  · have hne : items ≠ [] := by
      rintro rfl
      exact hempty rfl
    obtain ⟨t, hreads, -⟩ := readsTexts_of_set hcell hkind hlabel hname hset hempty
    exact ⟨_, t, hreads, readList_join_iff hne⟩

end

/-- A list whose second item begins with a blank. -/
def blankItems : List Text := ["a", " b"]

end

end FunctionManifest
