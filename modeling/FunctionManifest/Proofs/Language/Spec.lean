import FunctionManifest.Proofs.Language.Asking
import FunctionManifest.Proofs.Session.Declarations
import FunctionManifest.Proofs.Value.Equality

/-!
# Specs of declarations

A param describes itself with its name first, and its prompt and the choices of that describe
themselves for it. Nothing but new objects comes of it.
-/

namespace FunctionManifest

open Eval

/-- What a prompt lets one choose from. -/
def Prompt.choices? : Prompt → Option Value
  | .select _ choices => some choices
  | _ => none

namespace Heap

/-- A prompt whose choices, if it has any, are choices. -/
def IsPrompt (heap : Heap) (v : Value) : Prop :=
  ∃ p, heap.cell? v = some (.prompt p) ∧ ∀ choices ∈ p.choices?,
    ∃ items, heap.items? choices = some items ∧
      ∀ item ∈ items, ∃ choice, heap.cell? item = some (.choice choice)

/-- A param asks with a prompt, if it asks at all. -/
def IsPrompted (heap : Heap) (v : Value) : Prop :=
  ∀ p, heap.cell? v = some (.param p) → p.input = .null ∨ heap.IsPrompt p.input

instance (heap : Heap) (v : Value) : Decidable (heap.IsPrompt v) :=
  decidable_of_iff ((match heap.cell? v with
    | some (.prompt p) => p.choices?.all fun choices => (heap.items? choices).any fun items =>
        decide (∀ item ∈ items, ∃ choice, heap.cell? item = some (.choice choice))
    | _ => false) = true) <| by
    unfold IsPrompt
    split
    · rename_i p hcell
      cases p <;> simp [hcell, Prompt.choices?, Option.any_eq_true]
    · rename_i hother
      simpa using fun p hcell => absurd hcell (hother p)

instance (heap : Heap) (v : Value) : Decidable (heap.IsPrompted v) :=
  decidable_of_iff ((match heap.cell? v with
    | some (.param p) => decide (p.input = .null ∨ heap.IsPrompt p.input)
    | _ => true) = true) <| by
    unfold IsPrompted
    split <;> simp_all

theorem IsPrompt.mono {heap later : Heap} {v : Value} (hlater : later.Extends heap)
    (h : heap.IsPrompt v) : later.IsPrompt v := by
  obtain ⟨p, hcell, hchoices⟩ := h
  refine ⟨p, hlater _ _ hcell, fun choices hp => ?_⟩
  obtain ⟨items, hitems, hitemChoices⟩ := hchoices choices hp
  exact ⟨items, hlater.items? hitems, fun item hitem =>
    (hitemChoices item hitem).imp fun _ => hlater _ _⟩

end Heap

variable {heap : Heap} {v : Value} {fuel : Nat} {made : Heap → Value → Prop}

/-- The arguments of a method that is asked without any. -/
def onlySelf (v : Value) : Arguments := ⟨[("self", v)], [], []⟩

@[simp] theorem onlySelf_get (v : Value) : (onlySelf v).get "self" = v := rfl

/-- An object describes itself by a method of its own. -/
theorem makes_specOf {cell : Cell} {m : Method} (hcell : heap.cell? v = some cell)
    (hplain : cell.attributes = []) (hfixed : cell.fixed? "to_spec" = none)
    (hmethod : Method.named? cell.methods "to_spec" = some m)
    (hbind : m.signature.bind [v] [] = .ok (onlySelf v))
    (hrun : Makes heap (runMethod (callValue fuel) m (onlySelf v)) made) :
    Makes heap (specOf (callValue (fuel + 1)) v) made :=
  makes_callAttribute (.of_cell? hcell hplain hfixed (by decide) hmethod) hbind hrun

/-! ## Prompts -/

theorem makes_choiceSpec {choice : Choice} (h : heap.cell? v = some (.choice choice)) :
    Makes heap (specOf (callValue (fuel + 1)) v) fun _ _ => True := by
  refine makes_specOf h rfl rfl (by rfl) rfl ?_
  simp only [runMethod, onlySelf_get]
  refine (makes_getAttribute h rfl rfl).bind fun later label hlater _ => ?_
  refine (makes_getAttribute (hlater _ _ h) rfl rfl).bind fun _ value _ _ => ?_
  exact makes_intern fun _ => trivial

theorem makes_selectSpec {many : Bool} {choices : Value} {items : List Value}
    (hitems : heap.items? choices = some items)
    (hchoices : ∀ item ∈ items, ∃ choice, heap.cell? item = some (.choice choice)) :
    Makes heap (selectSpec (callValue (fuel + 1)) many choices) fun _ _ => True := by
  refine (makes_reading _).bind fun later listed hlater hlisted => ?_
  rw [Heap.items, hlater.items? hitems, Except.ok.injEq] at hlisted
  subst hlisted
  have hspecs : ∀ item ∈ items,
      Makes later (specOf (callValue (fuel + 1)) item) fun _ _ => True := fun item hitem =>
    let ⟨_, hchoice⟩ := hchoices item hitem
    makes_choiceSpec (hlater _ _ hchoice)
  refine (Makes.mapM hspecs fun _ _ _ _ _ _ => trivial).bind fun _ specs _ _ => ?_
  exact makes_intern fun _ => trivial

theorem makes_promptSpec (h : heap.IsPrompt v) :
    Makes heap (specOf (callValue (fuel + 2)) v) fun _ _ => True := by
  obtain ⟨p, hcell, hchoices⟩ := h
  cases p with
  | text sample pattern complaint =>
    refine makes_specOf hcell rfl rfl (by rfl) rfl ?_
    simp only [runMethod, onlySelf_get]
    refine (makes_getAttribute hcell rfl rfl).bind fun mid _ hmid _ => ?_
    have hcell := hmid _ _ hcell
    refine (makes_getAttribute hcell rfl rfl).bind fun later _ hlater _ => ?_
    refine (makes_getAttribute (hlater _ _ hcell) rfl rfl).bind fun _ _ _ _ => ?_
    exact makes_intern fun _ => trivial
  | select many choices =>
    obtain ⟨items, hitems, hitemChoices⟩ := hchoices choices rfl
    have hbind : (Method.selectSpec many).signature.bind [v] [] = .ok (onlySelf v) := by
      cases many <;> rfl
    refine makes_specOf hcell rfl rfl (by cases many <;> rfl) hbind ?_
    simp only [runMethod, onlySelf_get]
    refine (makes_getAttribute hcell rfl rfl).bind fun later found hlater hfound => ?_
    rw [hfound]
    refine makes_selectSpec (hlater.items? hitems) fun item hitem => ?_
    exact (hitemChoices item hitem).imp fun _ => hlater _ _
  | resource type =>
    refine makes_specOf hcell rfl rfl (by rfl) rfl ?_
    simp only [runMethod, onlySelf_get]
    refine (makes_getAttribute hcell rfl rfl).bind fun _ _ _ _ => ?_
    exact makes_intern fun _ => trivial

/-! ## Params and secrets -/

/-- A spec gives the name first. -/
def Heap.IsSpecOf (heap : Heap) (name : Text) (spec : Value) : Prop :=
  ∃ others, heap.cell? spec = some (.mapping ((.text "name", .text name) :: others))

theorem isPrompt_of_given {p : Param} (h : p.input = .null ∨ heap.IsPrompt p.input) :
    ∀ prompt ∈ p.input.given?, heap.IsPrompt prompt := by
  intro prompt hgiven
  rcases h with hnull | hprompt
  · rw [hnull] at hgiven
    cases hgiven
  · unfold Value.given? at hgiven
    split at hgiven
    · cases hgiven
    · exact Option.some.inj hgiven ▸ hprompt

theorem makes_inputSpec {p : Param} (h : p.input = .null ∨ heap.IsPrompt p.input) :
    Makes heap (p.input.given?.mapM (specOf (callValue (fuel + 2)))) fun _ _ => True :=
  Makes.option_mapM fun prompt hgiven => makes_promptSpec (isPrompt_of_given h prompt hgiven)

theorem makes_paramSpec {p : Param} {name : Text} (hname : p.name = .text name)
    (hprompt : p.input = .null ∨ heap.IsPrompt p.input) :
    Makes heap (paramSpec (callValue (fuel + 2)) p) fun after spec => after.IsSpecOf name spec := by
  refine (makes_reading _).bind fun mid default hmid _ => ?_
  refine (makes_inputSpec (hprompt.imp_right fun h => h.mono hmid)).bind fun _ prompt _ _ => ?_
  have hspec : p.spec default prompt = .mapping ((.text "name", .text name) ::
      ((field "type" (.text p.kind.valueType) ++ given "default" default ++
        given "label" p.label ++ given "description" p.description ++
        fieldIf "input" prompt).map fun field => (.text field.1, field.2))) := by
    rw [Param.spec, hname]
    rfl
  rw [hspec]
  exact makes_intern_beginning (Value.isKept_texts [("name", name)]) _

theorem makes_asParam {p : Param} (hcell : heap.cell? v = some (.param p)) (part : Text) :
    Makes heap (asParam v part) fun _ found => found = p := by
  refine (makes_cell? hcell).bind fun _ found _ hfound => ?_
  rw [hfound]
  exact makes_pure fun _ _ => rfl

/-- What was declared under a name describes itself with this name. -/
theorem makes_declaredSpec {name : Text} (h : heap.declaredName? v = some name)
    (hprompt : heap.IsPrompted v) :
    Makes heap (specOf (callValue (fuel + 3)) v) fun after spec => after.IsSpecOf name spec := by
  obtain ⟨cell, hcell, hname⟩ := Option.bind_eq_some_iff.mp h
  cases cell with
  | param p =>
    have hmethod : Method.named? (Method.ofParam p.kind) "to_spec" =
        some (if p.kind = .builtin then .builtinSpec else .paramSpec) := by
      cases p.kind <;> rfl
    by_cases hkind : p.kind = .builtin
    · rw [if_pos hkind] at hmethod
      refine makes_specOf hcell rfl rfl hmethod rfl ?_
      simp only [runMethod]
      exact (makes_reading _).bind fun _ _ _ _ => makes_throw _
    · rw [if_neg hkind] at hmethod
      refine makes_specOf hcell rfl rfl hmethod rfl ?_
      simp only [runMethod, onlySelf_get]
      refine (makes_asParam hcell _).bind fun later found hlater hfound => ?_
      rw [hfound]
      exact makes_paramSpec (Value.text?_eq_some hname)
        ((hprompt p hcell).imp_right fun h => h.mono hlater)
  | secret s =>
    have hmethod : Method.named? [Method.secretSpec s.json] "to_spec" =
        some (.secretSpec s.json) := by
      cases s.json <;> rfl
    have hbind : (Method.secretSpec s.json).signature.bind [v] [] = .ok (onlySelf v) := by
      cases s.json <;> rfl
    refine makes_specOf hcell rfl rfl hmethod hbind ?_
    simp only [runMethod, onlySelf_get]
    refine (makes_cell? hcell).bind fun _ found _ hfound => ?_
    rw [hfound]
    have hspec : s.spec = .mapping ((.text "name", .text name) ::
        ((field "type" (.text "secret") ++
          if s.json then field "format" (.text "json") else []).map
            fun field => (.text field.1, field.2))) := by
      rw [Secret.spec, Value.text?_eq_some hname]
      rfl
    dsimp only
    rw [hspec]
    exact makes_intern_beginning (Value.isKept_texts [("name", name)]) _
  | _ => cases hname

/-! ## Registries -/

theorem Heap.IsSpecOf.mono {later : Heap} {name : Text} {spec : Value}
    (hlater : later.Extends heap) (h : heap.IsSpecOf name spec) : later.IsSpecOf name spec :=
  h.imp fun _ => hlater _ _

theorem makes_asRegistry {r : Registry Value} (h : heap.cell? v = some (.registry r))
    (part : Text) : Makes heap (asRegistry v part) fun _ found => found.2 = r := by
  cases v with
  | ref address =>
    refine (makes_cell? h).bind fun _ found _ hfound => ?_
    rw [hfound]
    exact makes_pure fun _ _ => rfl
  | _ => cases h

namespace Heap

/-- A list of what these declarations, asked since, describe themselves as, each under its name. -/
def HasSpecs (heap before : Heap) (v : Value) (declared : List (Value × Text)) : Prop :=
  ∃ specs, heap.cell? v = some (.list specs) ∧
    List.Forall₂ (fun declaration spec => heap.IsSpecOf declaration.2 spec ∧
      Gave before (specOf (callValue (callDepth - 1)) declaration.1) heap spec) declared specs

theorem HasSpecs.mono {heap before later : Heap} {v : Value} {declared : List (Value × Text)}
    (h : heap.HasSpecs before v declared) (hlater : later.Extends heap) :
    later.HasSpecs before v declared := by
  obtain ⟨specs, hspecs, hall⟩ := h
  exact ⟨specs, hlater _ _ hspecs, hall.imp fun _ _ h => ⟨h.1.mono hlater, h.2.mono hlater⟩⟩

end Heap

/-- A registry lists the specs of what it has, in order. -/
theorem makes_specs {entries : List (Value × Text)}
    (h : heap.cell? v = some (.registry ⟨entries.map Prod.fst⟩))
    (hnames : ∀ e ∈ entries, heap.declaredName? e.1 = some e.2)
    (hprompts : ∀ e ∈ entries, heap.IsPrompted e.1) :
    Makes heap (callAttribute (callValue (fuel + 4)) v "specs" []) fun after w =>
      ∃ specs, after.cell? w = some (.list specs) ∧
        List.Forall₂ (fun e spec => after.IsSpecOf e.2 spec ∧
          Gave heap (specOf (callValue (fuel + 3)) e.1) after spec) entries specs := by
  have hmethod : heap.HasMethod v "specs" .specs := .of_cell? h rfl rfl (by decide) (by rfl)
  have hbind : Method.specs.signature.bind [v] [] = .ok (onlySelf v) := rfl
  refine makes_callAttribute hmethod hbind ?_
  simp only [runMethod, onlySelf_get]
  refine (makes_asRegistry h _).bind fun mid found hmid hfound => ?_
  rw [hfound, List.mapM_map]
  have hspecs : ∀ e ∈ entries, Makes heap (specOf (callValue (fuel + 3)) e.1) fun after spec =>
      after.IsSpecOf e.2 spec ∧ Gave heap (specOf (callValue (fuel + 3)) e.1) after spec :=
    fun e he => (makes_declaredSpec (hnames e he) (hprompts e he)).gave
  have hall := Makes.mapM hspecs fun e _ after spec hlater hspec =>
    ⟨hspec.1.mono hlater, hspec.2.mono hlater⟩
  refine (hall.mono hmid).bind fun later specs hlater hmade => ?_
  have hkept : ∀ spec ∈ specs, spec.IsKept := by
    intro spec hspec
    obtain ⟨e, -, ⟨others, hcell⟩, -⟩ := exists_left_of_forall₂ hmade hspec
    exact Value.isKept_of_cell? hcell
  refine (makes_intern_list hkept).imp fun after w hafter hw => ⟨specs, hw, ?_⟩
  exact hmade.imp fun e spec hspec => ⟨hspec.1.mono hafter, hspec.2.mono hafter⟩

end FunctionManifest
