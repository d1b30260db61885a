import FunctionManifest.Proofs.Relocation.Shown
import FunctionManifest.Proofs.Wire.Interchange

/-!
# Expressions

An expression is read off its objects, a setting off its values. On the way down, what was entered
is known by its address, and new addresses are as different as the old ones.
-/

namespace FunctionManifest

variable {ρ : Relocation} {heap heap' : Heap}

mutual

def Expression.relocated (ρ : Relocation) : Expression → Expression
  | .base => .base
  | .param p => .param (moved ρ p)
  | .compare op left right => .compare op (left.relocated ρ) (right.relocated ρ)
  | .ifElse test ifTrue ifFalse =>
    .ifElse (test.relocated ρ) (ifTrue.relocated ρ) (ifFalse.relocated ρ)
  | .foreign v => .foreign (moved ρ v)
  | .endless => .endless

def Operand.relocated (ρ : Relocation) : Operand → Operand
  | .expression e => .expression (e.relocated ρ)
  | .param p => .param (moved ρ p)
  | .null => .null
  | .bool b => .bool b
  | .int n => .int n
  | .text t => .text t
  | .list items => .list (relocatedOperands ρ items)
  | .tuple items => .tuple (relocatedOperands ρ items)
  | .other v => .other (moved ρ v)
  | .endless => .endless

def relocatedOperands (ρ : Relocation) : List Operand → List Operand
  | [] => []
  | item :: rest => item.relocated ρ :: relocatedOperands ρ rest

end

instance : Relocatable Expression := ⟨Expression.relocated⟩
instance : Relocatable Operand := ⟨Operand.relocated⟩

theorem relocatedOperands_eq (items : List Operand) :
    relocatedOperands ρ items = moved ρ items := by
  induction items with
  | nil => rfl
  | cons item rest ih => rw [relocatedOperands, ih]; rfl

@[simp] theorem moved_expression_param (p : Value) :
    moved ρ (Expression.param p) = .param (moved ρ p) := rfl
@[simp] theorem moved_expression_foreign (v : Value) :
    moved ρ (Expression.foreign v) = .foreign (moved ρ v) := rfl
@[simp] theorem moved_expression_compare (op : Comparator) (left : Expression) (right : Operand) :
    moved ρ (Expression.compare op left right) = .compare op (moved ρ left) (moved ρ right) := rfl
@[simp] theorem moved_expression_ifElse (test : Expression) (ifTrue ifFalse : Operand) :
    moved ρ (Expression.ifElse test ifTrue ifFalse) =
      .ifElse (moved ρ test) (moved ρ ifTrue) (moved ρ ifFalse) := rfl
@[simp] theorem moved_operand_expression (e : Expression) :
    moved ρ (Operand.expression e) = .expression (moved ρ e) := rfl
@[simp] theorem moved_operand_param (p : Value) :
    moved ρ (Operand.param p) = .param (moved ρ p) := rfl
@[simp] theorem moved_operand_other (v : Value) :
    moved ρ (Operand.other v) = .other (moved ρ v) := rfl
@[simp] theorem moved_operand_endless : moved ρ Operand.endless = .endless := rfl
@[simp] theorem moved_operand_list (items : List Operand) :
    moved ρ (Operand.list items) = .list (moved ρ items) :=
  congrArg Operand.list (relocatedOperands_eq items)
@[simp] theorem moved_operand_tuple (items : List Operand) :
    moved ρ (Operand.tuple items) = .tuple (moved ρ items) :=
  congrArg Operand.tuple (relocatedOperands_eq items)

mutual

def Setting.relocated (ρ : Relocation) : Setting → Setting
  | .expression e => .expression (moved ρ e)
  | .param p => .param (moved ρ p)
  | .mapping entries => .mapping (relocatedSettingEntries ρ entries)
  | .list items => .list (relocatedSettings ρ items)
  | .tuple items => .tuple (relocatedSettings ρ items)
  | .kept v => .kept (moved ρ v)
  | setting => setting

def relocatedSettings (ρ : Relocation) : List Setting → List Setting
  | [] => []
  | item :: rest => item.relocated ρ :: relocatedSettings ρ rest

def relocatedSettingEntries (ρ : Relocation) : List (Value × Setting) → List (Value × Setting)
  | [] => []
  | (key, item) :: rest => (moved ρ key, item.relocated ρ) :: relocatedSettingEntries ρ rest

end

instance : Relocatable Setting := ⟨Setting.relocated⟩

theorem relocatedSettings_eq (items : List Setting) :
    relocatedSettings ρ items = moved ρ items := by
  induction items with
  | nil => rfl
  | cons item rest ih => rw [relocatedSettings, ih]; rfl

theorem relocatedSettingEntries_eq (entries : List (Value × Setting)) :
    relocatedSettingEntries ρ entries = moved ρ entries := by
  induction entries with
  | nil => rfl
  | cons entry rest ih => rw [relocatedSettingEntries, ih]; rfl

@[simp] theorem moved_setting_expression (e : Expression) :
    moved ρ (Setting.expression e) = .expression (moved ρ e) := rfl
@[simp] theorem moved_setting_param (p : Value) :
    moved ρ (Setting.param p) = .param (moved ρ p) := rfl
@[simp] theorem moved_setting_kept (v : Value) : moved ρ (Setting.kept v) = .kept (moved ρ v) := rfl
@[simp] theorem moved_setting_reset : moved ρ Setting.reset = .reset := rfl
@[simp] theorem moved_setting_pattern (template : Text) :
    moved ρ (Setting.pattern template) = .pattern template := rfl
@[simp] theorem moved_setting_regex (source : Text) :
    moved ρ (Setting.regex source) = .regex source := rfl
@[simp] theorem moved_setting_endless : moved ρ Setting.endless = .endless := rfl
@[simp] theorem moved_setting_mapping (entries : List (Value × Setting)) :
    moved ρ (Setting.mapping entries) = .mapping (moved ρ entries) :=
  congrArg Setting.mapping (relocatedSettingEntries_eq entries)
@[simp] theorem moved_setting_list (items : List Setting) :
    moved ρ (Setting.list items) = .list (moved ρ items) :=
  congrArg Setting.list (relocatedSettings_eq items)
@[simp] theorem moved_setting_tuple (items : List Setting) :
    moved ρ (Setting.tuple items) = .tuple (moved ρ items) :=
  congrArg Setting.tuple (relocatedSettings_eq items)

namespace Heap

theorem moved_formulaTree {operand operand' : Value → Operand} {tree tree' : Value → Expression}
    (hoperand : ∀ v, operand' (moved ρ v) = moved ρ (operand v))
      (htree : ∀ v, tree' (moved ρ v) = moved ρ (tree v))
    (f : Formula) :
    formulaTree operand' tree' (moved ρ f) = moved ρ (formulaTree operand tree f) := by
  cases f with
  | base | param => rfl
  | compare op left right =>
    change Expression.compare op (tree' (moved ρ left)) (operand' (moved ρ right)) = _
    rw [hoperand, htree]; rfl
  | ifElse test ifTrue ifFalse =>
    change Expression.ifElse (tree' (moved ρ test)) (operand' (moved ρ ifTrue))
        (operand' (moved ρ ifFalse)) = _
    rw [hoperand, hoperand, htree]; rfl

variable [Heap.Moved ρ heap heap']

@[simp] theorem moved_formula? (v : Value) :
    heap'.formula? (moved ρ v) = moved ρ (heap.formula? v) := by
  unfold formula?
  rw [moved_cell?]
  cases heap.cell? v with
  | none => rfl
  | some cell => cases cell <;> rfl

theorem moved_unfolding (fuel : Nat) : ∀ (way : List Nat) (v : Value),
    heap'.expressionFrom fuel (way.map ρ.address) (moved ρ v) =
      moved ρ (heap.expressionFrom fuel way v) ∧
      heap'.operandFrom fuel (way.map ρ.address) (moved ρ v) =
        moved ρ (heap.operandFrom fuel way v) := by
  induction fuel with
  | zero =>
    refine fun way v => ⟨rfl, ?_⟩
    unfold operandFrom
    rfl
  | succ fuel ih =>
    intro way v
    have htree : ∀ f, formulaTree (heap'.operandFrom fuel (way.map ρ.address))
        (heap'.expressionFrom fuel (way.map ρ.address)) (moved ρ f) =
          moved ρ (formulaTree (heap.operandFrom fuel way) (heap.expressionFrom fuel way) f) :=
      moved_formulaTree (fun v => (ih way v).2) fun v => (ih way v).1
    constructor
    · unfold expressionFrom
      rw [moved_formula?]
      cases heap.formula? v with
      | none => rfl
      | some f => exact htree f
    · have hitems : ∀ (way : List Nat) (items : List Value),
          (moved ρ items).map (heap'.operandFrom fuel (way.map ρ.address)) =
            moved ρ (items.map (heap.operandFrom fuel way)) :=
        fun way items => moved_map items fun v => (ih way v).2
      cases v with
      | ref a =>
        have hcell : heap'.cell? (moved ρ (.ref a)) = moved ρ (heap.cell? (.ref a)) :=
          moved_cell? _
        have henter := moved_enter? (ρ := ρ) way (.ref a)
        rw [moved_ref] at hcell henter ⊢
        cases hfound : heap.cell? (.ref a) with
        | none =>
          rw [hfound] at hcell
          simp [operandFrom, content, hcell, hfound]
        | some cell =>
          rw [hfound] at hcell
          cases cell with
          | formula f =>
            rw [operandFrom_formula hfound, operandFrom_formula hcell, htree]
            rfl
          | param p =>
            rw [operandFrom_param hfound, operandFrom_param hcell]
            rfl
          | list items | tuple items =>
            cases hway : enter? way (.ref a) <;> rw [hway] at henter <;>
              simp [operandFrom, content, hcell, hfound, henter, hway, hitems]
          | _ => simp [operandFrom, content, hcell, hfound]
      | list items => simp [operandFrom, cell?, content, enter?, hitems]
      | tuple items => simp [operandFrom, cell?, content, enter?, hitems]
      | mapping entries => simp [operandFrom, cell?, content, enter?]
      | float x => rfl
      | _ => rfl

@[simp] theorem moved_expression (v : Value) :
    heap'.expression (moved ρ v) = moved ρ (heap.expression v) :=
  (moved_unfolding depth [] v).1

@[simp] theorem moved_operand (v : Value) : heap'.operand (moved ρ v) = moved ρ (heap.operand v) :=
  (moved_unfolding depth [] v).2

theorem moved_settingFrom (fuel : Nat) (way : List Nat) (v : Value) :
    heap'.settingFrom fuel (way.map ρ.address) (moved ρ v) =
      moved ρ (heap.settingFrom fuel way v) := by
  induction fuel generalizing way v with
  | zero => rfl
  | succ fuel ih =>
    have hitems : ∀ (way : List Nat) (items : List Value),
        (moved ρ items).map (heap'.settingFrom fuel (way.map ρ.address)) =
          moved ρ (items.map (heap.settingFrom fuel way)) :=
      fun way items => moved_map items (ih way)
    have hentries : ∀ (way : List Nat) (entries : Entries),
        (moved ρ entries).map
          (fun entry => (entry.1, heap'.settingFrom fuel (way.map ρ.address) entry.2)) =
          moved ρ (entries.map fun entry => (entry.1, heap.settingFrom fuel way entry.2)) :=
      fun way entries => moved_map entries fun entry => congrArg (Prod.mk _) (ih way entry.2)
    cases v with
    | ref a =>
      have hcell : heap'.cell? (moved ρ (.ref a)) = moved ρ (heap.cell? (.ref a)) := moved_cell? _
      have hexpression :
          heap'.expression (moved ρ (.ref a)) = moved ρ (heap.expression (.ref a)) :=
        moved_expression _
      have henter := moved_enter? (ρ := ρ) way (.ref a)
      rw [moved_ref] at hcell henter hexpression ⊢
      cases hfound : heap.cell? (.ref a) with
      | none =>
        rw [hfound] at hcell
        simp [settingFrom, content, hcell, hfound]
      | some cell =>
        rw [hfound] at hcell
        cases cell with
        | formula f =>
          rw [settingFrom_formula hfound, settingFrom_formula hcell, hexpression]
          rfl
        | list items | tuple items | mapping entries =>
          cases hway : enter? way (.ref a) <;> rw [hway] at henter <;>
            simp [settingFrom, content, hcell, hfound, henter, hway, hitems, hentries]
        | _ => simp [settingFrom, content, hcell, hfound]
    | list items => simp [settingFrom, cell?, content, enter?, hitems]
    | tuple items => simp [settingFrom, cell?, content, enter?, hitems]
    | mapping entries => simp [settingFrom, cell?, content, enter?, hentries]
    | _ => rfl

@[simp] theorem moved_settingOf (v : Value) :
    heap'.setting (moved ρ v) = moved ρ (heap.setting v) :=
  moved_settingFrom depth [] v

end Heap

end FunctionManifest
