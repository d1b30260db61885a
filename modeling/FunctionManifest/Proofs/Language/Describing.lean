import FunctionManifest.Proofs.Language.Spec

/-!
# What can be described

A param or a secret has a spec unless it is built in, provided that the default and the prompt of a
param are of the types that its declaration takes.
-/

namespace FunctionManifest

open Eval

variable {heap later : Heap} {v : Value} {fuel : Nat}

/-! ## Asking -/

theorem returns_callAttribute {name : Text} {m : Method} {positional : List Value}
    {arguments : Arguments} (h : heap.HasMethod v name m)
    (hbind : m.signature.bind (v :: positional) [] = .ok arguments)
    (hrun : Returns heap (runMethod (callValue fuel) m arguments)) :
    Returns heap (callAttribute (callValue (fuel + 1)) v name positional) := by
  intro s hs
  rw [on_callAttribute_method (h.mono hs), hbind, next_ok]
  exact hrun _ ((Heap.extends_allocate s.heap (.method m (some v))).trans hs)

theorem returns_getAttribute {call : Caller} {cell : Cell} {name : String} {w : Value}
    (hcell : heap.cell? v = some cell) (hplain : cell.attributes = [])
    (h : cell.fixed? name = some w) : Returns heap (getAttribute call v name) := by
  intro s hs
  have hstored : cell.stored? name = some w := by rw [Cell.stored?_of_plain hplain, h]
  exact ⟨w, s, on_getAttribute_stored (Heap.stored?_of_cell? (hs _ _ hcell) hstored)⟩

theorem returns_intern (v : Value) : Returns heap (intern v) := fun s _ => ⟨_, _, on_intern v s⟩

theorem returns_specOf {cell : Cell} {m : Method} (hcell : heap.cell? v = some cell)
    (hplain : cell.attributes = []) (hfixed : cell.fixed? "to_spec" = none)
    (hmethod : Method.named? cell.methods "to_spec" = some m)
    (hbind : m.signature.bind [v] [] = .ok (onlySelf v))
    (hrun : Returns heap (runMethod (callValue fuel) m (onlySelf v))) :
    Returns heap (specOf (callValue (fuel + 1)) v) :=
  returns_callAttribute (.of_cell? hcell hplain hfixed (by decide) hmethod) hbind hrun

/-! ## Prompts -/

theorem returns_choiceSpec {choice : Choice} (h : heap.cell? v = some (.choice choice)) :
    Returns heap (specOf (callValue (fuel + 1)) v) := by
  refine returns_specOf h rfl rfl (by rfl) rfl ?_
  simp only [runMethod, onlySelf_get]
  refine (returns_getAttribute h rfl rfl).bind (makes_getAttribute h rfl rfl)
    fun later label hlater _ => ?_
  have h := hlater _ _ h
  exact (returns_getAttribute h rfl rfl).bind (makes_getAttribute h rfl rfl)
    fun _ _ _ _ => returns_intern _

theorem returns_selectSpec {many : Bool} {choices : Value} {items : List Value}
    (hitems : heap.items? choices = some items)
    (hchoices : ∀ item ∈ items, ∃ choice, heap.cell? item = some (.choice choice)) :
    Returns heap (selectSpec (callValue (fuel + 1)) many choices) := by
  have hlisted : ∀ later : Heap, later.Extends heap → later.items choices = .ok items :=
    fun later hlater => by rw [Heap.items, hlater.items? hitems]
  refine (returns_reading fun later hlater => ⟨items, hlisted later hlater⟩).bind (makes_reading _)
    fun later listed hlater hfound => ?_
  obtain rfl := Except.ok.inj (hfound.symm.trans (hlisted later hlater))
  have hone : ∀ item ∈ listed, ∃ choice, later.cell? item = some (.choice choice) :=
    fun item hitem => (hchoices item hitem).imp fun _ => hlater _ _
  have hmade : ∀ item ∈ listed, Makes later (specOf (callValue (fuel + 1)) item) fun _ _ => True :=
    fun item hitem => (hone item hitem).elim fun _ => makes_choiceSpec
  have hreturns : ∀ item ∈ listed, Returns later (specOf (callValue (fuel + 1)) item) :=
    fun item hitem => (hone item hitem).elim fun _ => returns_choiceSpec
  exact (Returns.mapM hmade hreturns).bind (Makes.mapM hmade fun _ _ _ _ _ _ => trivial)
    fun _ _ _ _ => returns_intern _

theorem returns_promptSpec (h : heap.IsPrompt v) :
    Returns heap (specOf (callValue (fuel + 2)) v) := by
  obtain ⟨p, hcell, hchoices⟩ := h
  cases p with
  | text sample pattern complaint =>
    refine returns_specOf hcell rfl rfl (by rfl) rfl ?_
    simp only [runMethod, onlySelf_get]
    refine (returns_getAttribute hcell rfl rfl).bind (makes_getAttribute hcell rfl rfl)
      fun mid _ hmid _ => ?_
    have hcell := hmid _ _ hcell
    refine (returns_getAttribute hcell rfl rfl).bind (makes_getAttribute hcell rfl rfl)
      fun later _ hlater _ => ?_
    have hcell := hlater _ _ hcell
    exact (returns_getAttribute hcell rfl rfl).bind (makes_getAttribute hcell rfl rfl)
      fun _ _ _ _ => returns_intern _
  | select many choices =>
    obtain ⟨items, hitems, hitemChoices⟩ := hchoices choices rfl
    have hbind : (Method.selectSpec many).signature.bind [v] [] = .ok (onlySelf v) := by
      cases many <;> rfl
    refine returns_specOf hcell rfl rfl (by cases many <;> rfl) hbind ?_
    simp only [runMethod, onlySelf_get]
    refine (returns_getAttribute hcell rfl rfl).bind (makes_getAttribute hcell rfl rfl)
      fun later found hlater hfound => ?_
    rw [hfound]
    exact returns_selectSpec (hlater.items? hitems) fun item hitem =>
      (hitemChoices item hitem).imp fun _ => hlater _ _
  | resource type =>
    refine returns_specOf hcell rfl rfl (by rfl) rfl ?_
    simp only [runMethod, onlySelf_get]
    exact (returns_getAttribute hcell rfl rfl).bind (makes_getAttribute hcell rfl rfl)
      fun _ _ _ _ => returns_intern _

/-! ## Params and secrets -/

namespace Heap

/-- The default of a list is absent or lists texts. -/
def HasListDefault (heap : Heap) (p : Param) : Prop :=
  p.default = .null ∨ ∃ texts : List Text, heap.items? p.default = some (texts.map .text)

/-- What is declared here is not built in, and was declared with what its type takes. -/
def IsDescribed (heap : Heap) (v : Value) : Prop :=
  ∀ p, heap.cell? v = some (.param p) →
    p.kind ≠ .builtin ∧ (p.kind = .list → heap.HasListDefault p) ∧
      (p.input = .null ∨ heap.IsPrompt p.input)

theorem IsDescribed.isPrompted (h : heap.IsDescribed v) : heap.IsPrompted v :=
  fun p hp => (h p hp).2.2

theorem HasListDefault.mono {later : Heap} {p : Param} (hlater : later.Extends heap)
    (h : heap.HasListDefault p) : later.HasListDefault p := by
  rcases h with hnull | ⟨texts, hitems⟩
  · exact .inl hnull
  · exact .inr ⟨texts, hlater.items? hitems⟩

theorem textItems_texts (heap : Heap) (index : Nat) (texts : List Text) :
    heap.textItems index (texts.map .text) = .ok texts := by
  induction texts generalizing index with
  | nil => rfl
  | cons t rest ih =>
    rw [List.map_cons, textItems, ih]
    rfl

theorem HasListDefault.specDefault {p : Param} (h : heap.HasListDefault p) :
    ∃ default, p.specDefault heap = .ok default := by
  unfold Param.specDefault
  split
  · rename_i hlist
    split
    · rcases h with hnull | ⟨texts, hitems⟩
      · simp [hnull, Value.isNull] at hlist
      · exact ⟨.text (Text.join "," texts), by
          simp [hitems, joined, textItems_texts, bind, Except.bind, pure, Except.pure]⟩
    · exact ⟨_, rfl⟩
  · exact ⟨_, rfl⟩

end Heap

theorem returns_paramSpec {p : Param} (hdefault : p.kind = .list → heap.HasListDefault p)
    (hprompt : p.input = .null ∨ heap.IsPrompt p.input) :
    Returns heap (paramSpec (callValue (fuel + 2)) p) := by
  have hread : ∀ later : Heap, later.Extends heap → ∃ default, p.specDefault later = .ok default := by
    intro later hlater
    by_cases hlist : p.kind = .list
    · exact ((hdefault hlist).mono hlater).specDefault
    · exact ⟨_, by rw [Param.specDefault, if_neg fun h => hlist h.1]⟩
  refine (returns_reading hread).bind (makes_reading _) fun mid default hmid _ => ?_
  have hprompt := hprompt.imp_right fun h => h.mono hmid
  exact (Returns.option_mapM fun prompt hgiven =>
      returns_promptSpec (isPrompt_of_given hprompt prompt hgiven)).bind
    (makes_inputSpec hprompt) fun _ _ _ _ => returns_intern _

theorem returns_declaredSpec {name : Text} (h : heap.declaredName? v = some name)
    (hdescribed : heap.IsDescribed v) : Returns heap (specOf (callValue (fuel + 3)) v) := by
  obtain ⟨cell, hcell, hname⟩ := Option.bind_eq_some_iff.mp h
  cases cell with
  | param p =>
    obtain ⟨hkind, hdefault, hprompt⟩ := hdescribed p hcell
    have hmethod : Method.named? (Method.ofParam p.kind) "to_spec" = some .paramSpec := by
      cases hp : p.kind with
      | builtin => exact absurd hp hkind
      | _ => rfl
    refine returns_specOf hcell rfl rfl hmethod rfl ?_
    simp only [runMethod, onlySelf_get]
    have hparam : Returns heap (asParam v "name") := by
      intro s hs
      exact ⟨p, s, by simp [asParam, hs _ _ hcell]⟩
    refine hparam.bind (makes_asParam hcell _) fun later found hlater hfound => ?_
    rw [hfound]
    exact returns_paramSpec (fun hlist => (hdefault hlist).mono hlater)
      (hprompt.imp_right fun h => h.mono hlater)
  | secret s =>
    have hmethod : Method.named? [Method.secretSpec s.json] "to_spec" =
        some (.secretSpec s.json) := by
      cases s.json <;> rfl
    have hbind : (Method.secretSpec s.json).signature.bind [v] [] = .ok (onlySelf v) := by
      cases s.json <;> rfl
    refine returns_specOf hcell rfl rfl hmethod hbind ?_
    intro u hu
    simp only [runMethod, onlySelf_get, on_bind, on_cell?, hu _ _ hcell, next_ok]
    exact ⟨_, _, on_intern _ _⟩
  | _ => cases hname

/-- A registry lists its specs if it holds what can be described. -/
theorem returns_specs {entries : List (Value × Text)}
    (h : heap.cell? v = some (.registry ⟨entries.map Prod.fst⟩))
    (hnames : ∀ e ∈ entries, heap.declaredName? e.1 = some e.2)
    (hdescribed : ∀ e ∈ entries, heap.IsDescribed e.1) :
    Returns heap (callAttribute (callValue (fuel + 4)) v "specs" []) := by
  have hmethod : heap.HasMethod v "specs" .specs := .of_cell? h rfl rfl (by decide) (by rfl)
  have hbind : Method.specs.signature.bind [v] [] = .ok (onlySelf v) := rfl
  refine returns_callAttribute hmethod hbind ?_
  simp only [runMethod, onlySelf_get]
  have hregistry : Returns heap (asRegistry v "_params") := by
    intro s hs
    cases v with
    | ref address => exact ⟨_, s, by simp [asRegistry, hs _ _ h]; rfl⟩
    | _ => cases h
  refine hregistry.bind (makes_asRegistry h _) fun mid found hmid hfound => ?_
  rw [hfound, List.mapM_map]
  have hmade : ∀ e ∈ entries, Makes mid (specOf (callValue (fuel + 3)) e.1) fun _ _ => True :=
    fun e he => ((makes_declaredSpec (hnames e he) (hdescribed e he).isPrompted).mono hmid).imp
      fun _ _ _ _ => trivial
  have hreturns : ∀ e ∈ entries, Returns mid (specOf (callValue (fuel + 3)) e.1) :=
    fun e he => (returns_declaredSpec (hnames e he) (hdescribed e he)).mono hmid
  exact (Returns.mapM hmade hreturns).bind (Makes.mapM hmade fun _ _ _ _ _ _ => trivial)
    fun _ _ _ _ => returns_intern _

end FunctionManifest
