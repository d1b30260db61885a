import FunctionManifest.Language.Call
import FunctionManifest.Proofs.Session.Growth
import FunctionManifest.Proofs.Session.Run
import Mathlib.Logic.Relation

/-!
# Params and references to them

A param that stands for itself and a reference to it become the same text, wherever they stand in a
value. So the wire form of a value does not tell which of the two it was made with.
-/

namespace FunctionManifest

open Eval

/-! ## Trees with references only -/

mutual

/-- The tree with a reference in place of every param that stands for itself. -/
def Expression.referred : Expression → Expression
  | .compare op left right => .compare op left.referred right.referred
  | .ifElse test ifTrue ifFalse => .ifElse test.referred ifTrue.referred ifFalse.referred
  | e => e

def Operand.referred : Operand → Operand
  | .param p => .expression (.param p)
  | .expression e => .expression e.referred
  | .list items => .list (referredOperands items)
  | .tuple items => .tuple (referredOperands items)
  | o => o

def referredOperands : List Operand → List Operand
  | [] => []
  | item :: rest => item.referred :: referredOperands rest

end

mutual

def Setting.referred : Setting → Setting
  | .param p => .expression (.param p)
  | .expression e => .expression e.referred
  | .mapping entries => .mapping (referredEntries entries)
  | .list items => .list (referredSettings items)
  | .tuple items => .tuple (referredSettings items)
  | setting => setting

def referredSettings : List Setting → List Setting
  | [] => []
  | item :: rest => item.referred :: referredSettings rest

def referredEntries : List (Value × Setting) → List (Value × Setting)
  | [] => []
  | (key, item) :: rest => (key, item.referred) :: referredEntries rest

end

section

variable {m : Type → Type} [Monad m] [MonadExceptOf Failure m] (ask : Asking m)

mutual

theorem Expression.render_referred : (e : Expression) → e.referred.render ask = e.render ask
  | .base | .param _ | .foreign _ | .endless => rfl
  | .compare op left right => by
    simp only [Expression.referred, Expression.render, left.render_referred, right.render_referred]
  | .ifElse test ifTrue ifFalse => by
    simp only [Expression.referred, Expression.render, test.render_referred,
      ifTrue.render_referred, ifFalse.render_referred]

theorem Operand.render_referred : (o : Operand) → o.referred.render ask = o.render ask
  | .expression e => by
    simp only [Operand.referred, Operand.render, e.render_referred]
  | .param _ => by simp only [Operand.referred, Operand.render, Expression.render]
  | .list items | .tuple items => by
    simp only [Operand.referred, Operand.render, renderOperands_referred items]
  | .null | .bool _ | .int _ | .text _ | .other _ | .endless => rfl

theorem renderOperands_referred : (items : List Operand) →
    renderOperands ask (referredOperands items) = renderOperands ask items
  | [] => rfl
  | item :: rest => by
    simp only [referredOperands, renderOperands, item.render_referred,
      renderOperands_referred rest]

end

mutual

theorem Setting.wire_referred : (setting : Setting) → setting.referred.wire ask = setting.wire ask
  | .expression e => by
    simp only [Setting.referred, Setting.wire, Expression.deferredText, e.render_referred]
  | .param _ => by simp only [Setting.referred, Setting.wire]
  | .mapping entries => by
    simp only [Setting.referred, Setting.wire, wireEntries_referred entries]
  | .list items | .tuple items => by
    simp only [Setting.referred, Setting.wire, wireItems_referred items]
  | .reset | .pattern _ | .regex _ | .kept _ | .endless => rfl

theorem wireItems_referred : (items : List Setting) →
    wireItems ask (referredSettings items) = wireItems ask items
  | [] => rfl
  | item :: rest => by
    simp only [referredSettings, wireItems, item.wire_referred, wireItems_referred rest]

theorem wireEntries_referred : (entries : List (Value × Setting)) →
    wireEntries ask (referredEntries entries) = wireEntries ask entries
  | [] => rfl
  | (key, item) :: rest => by
    simp only [referredEntries, wireEntries, item.wire_referred, wireEntries_referred rest]

end

end

theorem referredOperands_eq_map (items : List Operand) :
    referredOperands items = items.map Operand.referred := by
  induction items with
  | nil => rfl
  | cons item rest ih => rw [referredOperands, ih, List.map_cons]

theorem referredSettings_eq_map (items : List Setting) :
    referredSettings items = items.map Setting.referred := by
  induction items with
  | nil => rfl
  | cons item rest ih => rw [referredSettings, ih, List.map_cons]

theorem referredEntries_eq_map (entries : List (Value × Setting)) :
    referredEntries entries = entries.map fun entry => (entry.1, entry.2.referred) := by
  induction entries with
  | nil => rfl
  | cons entry rest ih => rw [referredEntries, ih, List.map_cons]

/-! ## What trees are made of -/

/-- What a value is read as: a setting, an operand of an expression, or an expression. -/
inductive Role where
  | setting
  | operand
  | expression

/-- What is read when the object is. -/
def Cell.pieces : Cell → List Value
  | .formula (.compare _ left right) => [left, right]
  | .formula (.ifElse test ifTrue ifFalse) => [test, ifTrue, ifFalse]
  | .list items | .tuple items => items
  | .mapping entries => entries.map Prod.snd
  | _ => []

namespace Heap

variable {heap : Heap} {role : Role} {v w x : Value} {fuel address : Nat} {way way' : List Nat}

def pieces (heap : Heap) : Value → List Value
  | .list items | .tuple items => items
  | .mapping entries => entries.map Prod.snd
  | v => ((heap.cell? v).map Cell.pieces).getD []

theorem pieces_of_cell? {cell : Cell} (hcell : heap.cell? v = some cell) :
    heap.pieces v = cell.pieces := by
  cases v with
  | ref address => simp [pieces, hcell]
  | _ => cases hcell

/-- No way into the value goes on for ever. -/
def IsFinite (heap : Heap) : Value → Prop := Acc fun x v => x ∈ heap.pieces v

/-- The value is inside everything on the way to it. -/
def IsEntered (heap : Heap) (way : List Nat) (v : Value) : Prop :=
  ∀ address ∈ way, Relation.TransGen (fun x v => x ∈ heap.pieces v) v (.ref address)

theorem IsEntered.nil (v : Value) : heap.IsEntered [] v := by
  intro address haddress
  cases haddress

theorem IsEntered.piece (h : heap.IsEntered way v) (hx : x ∈ heap.pieces v) :
    heap.IsEntered way x := by
  intro address haddress
  exact .head hx (h address haddress)

theorem IsFinite.of_pieces (h : ∀ x ∈ heap.pieces v, heap.IsFinite x) : heap.IsFinite v :=
  Acc.intro v h

/-- Nothing finite is met inside itself. -/
theorem IsFinite.not_mem (h : heap.IsFinite (.ref address))
    (hway : heap.IsEntered way (.ref address)) : address ∉ way := by
  intro hmem
  have hirrefl : ∀ v, Acc (Relation.TransGen fun x v => x ∈ heap.pieces v) v →
      ¬Relation.TransGen (fun x v => x ∈ heap.pieces v) v v := by
    intro v hv
    induction hv with
    | intro v _ ih =>
      intro hself
      exact ih v hself hself
  exact hirrefl _ h.transGen (hway address hmem)

theorem exists_enter? (h : heap.IsFinite v) (hway : heap.IsEntered way v) :
    ∃ inner, enter? way v = some inner ∧ ∀ x ∈ heap.pieces v, heap.IsEntered inner x := by
  cases v with
  | ref a =>
    refine ⟨a :: way, if_neg (h.not_mem hway), fun x hx b hb => ?_⟩
    rcases List.mem_cons.mp hb with rfl | hb
    · exact .single hx
    · exact hway.piece hx b hb
  | _ => exact ⟨way, rfl, fun x hx => hway.piece hx⟩

/-! ## Reading one layer -/

theorem expressionFrom_formula {f : Formula} (hcell : heap.cell? v = some (.formula f)) :
    heap.expressionFrom (fuel + 1) way v =
      formulaTree (heap.operandFrom fuel way) (heap.expressionFrom fuel way) f := by
  simp [expressionFrom, formula?, hcell]

theorem expressionFrom_foreign (hcell : ∀ f, heap.cell? v ≠ some (.formula f)) :
    heap.expressionFrom (fuel + 1) way v = .foreign v := by
  have hformula : heap.formula? v = none := by
    unfold formula?
    split
    · exact absurd ‹_› (hcell _)
    · rfl
  simp [expressionFrom, hformula]

theorem operandFrom_formula {f : Formula} (hcell : heap.cell? v = some (.formula f)) :
    heap.operandFrom (fuel + 1) way v =
      .expression (formulaTree (heap.operandFrom fuel way) (heap.expressionFrom fuel way) f) := by
  cases v with
  | ref address => simp [operandFrom, hcell]
  | _ => cases hcell

theorem operandFrom_param {p : Param} (hcell : heap.cell? v = some (.param p)) :
    heap.operandFrom (fuel + 1) way v = .param v := by
  cases v with
  | ref address => simp [operandFrom, hcell]
  | _ => cases hcell

theorem settingFrom_formula {f : Formula} (hcell : heap.cell? v = some (.formula f)) :
    heap.settingFrom (fuel + 1) way v = .expression (heap.expression v) := by
  simp [settingFrom, hcell]

theorem settingFrom_param {p : Param} (hcell : heap.cell? v = some (.param p)) :
    heap.settingFrom (fuel + 1) way v = .param v := by
  simp [settingFrom, hcell]

/-- A list is an object or new. -/
theorem cell?_of_list {items : List Value} (hcontent : heap.content v = .list items) :
    heap.cell? v = some (.list items) ∨ v = .list items := by
  unfold content at hcontent
  split at hcontent <;> simp_all

theorem cell?_of_tuple {items : List Value} (hcontent : heap.content v = .tuple items) :
    heap.cell? v = some (.tuple items) ∨ v = .tuple items := by
  unfold content at hcontent
  split at hcontent <;> simp_all

theorem cell?_of_mapping {entries : Entries} (hcontent : heap.content v = .mapping entries) :
    heap.cell? v = some (.mapping entries) ∨ v = .mapping entries := by
  unfold content at hcontent
  split at hcontent <;> simp_all

section

variable {items : List Value} {entries : Entries} {inner : List Nat}

theorem operandFrom_of_list (hcontent : heap.content v = .list items)
    (henter : enter? way v = some inner) :
    heap.operandFrom (fuel + 1) way v = .list (items.map (heap.operandFrom fuel inner)) := by
  rcases cell?_of_list hcontent with hcell | rfl
  · cases v with
    | ref address => simp [operandFrom, hcell, hcontent, henter]
    | _ => cases hcell
  · simp [operandFrom, cell?, hcontent, henter]

theorem operandFrom_of_tuple (hcontent : heap.content v = .tuple items)
    (henter : enter? way v = some inner) :
    heap.operandFrom (fuel + 1) way v = .tuple (items.map (heap.operandFrom fuel inner)) := by
  rcases cell?_of_tuple hcontent with hcell | rfl
  · cases v with
    | ref address => simp [operandFrom, hcell, hcontent, henter]
    | _ => cases hcell
  · simp [operandFrom, cell?, hcontent, henter]

theorem settingFrom_of_list (hcontent : heap.content v = .list items)
    (henter : enter? way v = some inner) :
    heap.settingFrom (fuel + 1) way v = .list (items.map (heap.settingFrom fuel inner)) := by
  rcases cell?_of_list hcontent with hcell | rfl
  · simp [settingFrom, hcell, hcontent, henter]
  · simp [settingFrom, cell?, hcontent, henter]

theorem settingFrom_of_tuple (hcontent : heap.content v = .tuple items)
    (henter : enter? way v = some inner) :
    heap.settingFrom (fuel + 1) way v = .tuple (items.map (heap.settingFrom fuel inner)) := by
  rcases cell?_of_tuple hcontent with hcell | rfl
  · simp [settingFrom, hcell, hcontent, henter]
  · simp [settingFrom, cell?, hcontent, henter]

theorem settingFrom_of_mapping (hcontent : heap.content v = .mapping entries)
    (henter : enter? way v = some inner) :
    heap.settingFrom (fuel + 1) way v =
      .mapping (entries.map fun entry => (entry.1, heap.settingFrom fuel inner entry.2)) := by
  rcases cell?_of_mapping hcontent with hcell | rfl
  · simp [settingFrom, hcell, hcontent, henter]
  · simp [settingFrom, cell?, hcontent, henter]

theorem pieces_of_list (hcontent : heap.content v = .list items) : heap.pieces v = items := by
  rcases cell?_of_list hcontent with hcell | rfl
  · exact pieces_of_cell? hcell
  · rfl

theorem pieces_of_tuple (hcontent : heap.content v = .tuple items) : heap.pieces v = items := by
  rcases cell?_of_tuple hcontent with hcell | rfl
  · exact pieces_of_cell? hcell
  · rfl

theorem pieces_of_mapping (hcontent : heap.content v = .mapping entries) :
    heap.pieces v = entries.map Prod.snd := by
  rcases cell?_of_mapping hcontent with hcell | rfl
  · exact pieces_of_cell? hcell
  · rfl

end

/-! ## Values without pieces -/

section

variable (h : heap.pieces v = []) (hway : heap.IsEntered way v) (hway' : heap.IsEntered way' v)

include h

theorem isFinite_of_pieces : heap.IsFinite v := by
  refine .of_pieces fun x hx => ?_
  rw [h] at hx
  cases hx

theorem expressionFrom_of_pieces :
    heap.expressionFrom fuel way v = heap.expressionFrom fuel way' v := by
  cases fuel with
  | zero => rfl
  | succ fuel =>
    by_cases hcell : ∃ f, heap.cell? v = some (.formula f)
    · obtain ⟨f, hcell⟩ := hcell
      rw [pieces_of_cell? hcell] at h
      rw [expressionFrom_formula hcell, expressionFrom_formula hcell]
      cases f with
      | base | param => rfl
      | compare | ifElse => cases h
    · have hforeign := not_exists.mp hcell
      rw [expressionFrom_foreign hforeign, expressionFrom_foreign hforeign]

include hway hway'

theorem operandFrom_of_pieces :
    heap.operandFrom fuel way v = heap.operandFrom fuel way' v := by
  cases fuel with
  | zero => rfl
  | succ fuel =>
    obtain ⟨inner, henter, -⟩ := exists_enter? (isFinite_of_pieces h) hway
    obtain ⟨inner', henter', -⟩ := exists_enter? (isFinite_of_pieces h) hway'
    unfold operandFrom
    split
    · rfl
    · rfl
    · rfl
    · rfl
    · rfl
    · split
      · rename_i f hcell
        rw [pieces_of_cell? hcell] at h
        cases f with
        | base | param => rfl
        | compare | ifElse => cases h
      · rfl
      · rw [henter, henter']
        split <;> simp_all [pieces_of_list, pieces_of_tuple]

theorem settingFrom_of_pieces :
    heap.settingFrom fuel way v = heap.settingFrom fuel way' v := by
  cases fuel with
  | zero => rfl
  | succ fuel =>
    obtain ⟨inner, henter, -⟩ := exists_enter? (isFinite_of_pieces h) hway
    obtain ⟨inner', henter', -⟩ := exists_enter? (isFinite_of_pieces h) hway'
    unfold settingFrom
    split
    · rfl
    · rfl
    · rfl
    · rfl
    · rfl
    · rw [henter, henter']
      split <;> simp_all [pieces_of_list, pieces_of_tuple, pieces_of_mapping]

end

/-! ## Interchange -/

/-- The second value is the first one with some params, wherever they are settings or operands in
it, replaced by references to them, and some references by their params. -/
inductive Interchanged (heap : Heap) : Role → Value → Value → Prop
  | same {role : Role} {v : Value} (h : heap.pieces v = []) : Interchanged heap role v v
  | refer {role : Role} {v w : Value} {p : Param} (hrole : role ≠ .expression)
      (hv : heap.cell? v = some (.param p)) (hw : heap.cell? w = some (.formula (.param v))) :
      Interchanged heap role v w
  | unrefer {role : Role} {v w : Value} {p : Param} (hrole : role ≠ .expression)
      (hv : heap.cell? v = some (.formula (.param w))) (hw : heap.cell? w = some (.param p)) :
      Interchanged heap role v w
  | compare {role : Role} {v w left right left' right' : Value} {op : Comparator}
      (hv : heap.cell? v = some (.formula (.compare op left right)))
      (hw : heap.cell? w = some (.formula (.compare op left' right')))
      (hleft : Interchanged heap .expression left left')
      (hright : Interchanged heap .operand right right') : Interchanged heap role v w
  | ifElse {role : Role} {v w test ifTrue ifFalse test' ifTrue' ifFalse' : Value}
      (hv : heap.cell? v = some (.formula (.ifElse test ifTrue ifFalse)))
      (hw : heap.cell? w = some (.formula (.ifElse test' ifTrue' ifFalse')))
      (htest : Interchanged heap .expression test test')
      (hifTrue : Interchanged heap .operand ifTrue ifTrue')
      (hifFalse : Interchanged heap .operand ifFalse ifFalse') : Interchanged heap role v w
  | list {role : Role} {v w : Value} {items items' : List Value} (hrole : role ≠ .expression)
      (hv : heap.content v = .list items) (hw : heap.content w = .list items')
      (hlength : items.length = items'.length)
      (hitems : ∀ pair ∈ items.zip items', Interchanged heap role pair.1 pair.2) :
      Interchanged heap role v w
  | tuple {role : Role} {v w : Value} {items items' : List Value} (hrole : role ≠ .expression)
      (hv : heap.content v = .tuple items) (hw : heap.content w = .tuple items')
      (hlength : items.length = items'.length)
      (hitems : ∀ pair ∈ items.zip items', Interchanged heap role pair.1 pair.2) :
      Interchanged heap role v w
  | mapping {v w : Value} {entries entries' : Entries}
      (hv : heap.content v = .mapping entries) (hw : heap.content w = .mapping entries')
      (hkeys : entries.map Prod.fst = entries'.map Prod.fst)
      (hvalues : ∀ pair ∈ entries.zip entries', Interchanged heap .setting pair.1.2 pair.2.2) :
      Interchanged heap .setting v w

/-- Read with so much fuel, the values make the same tree but for references. -/
def SameTree (heap : Heap) (fuel : Nat) (way way' : List Nat) (v w : Value) : Role → Prop
  | .setting => (heap.settingFrom fuel way v).referred = (heap.settingFrom fuel way' w).referred
  | .operand => (heap.operandFrom fuel way v).referred = (heap.operandFrom fuel way' w).referred
  | .expression =>
    (heap.expressionFrom fuel way v).referred = (heap.expressionFrom fuel way' w).referred

namespace Interchanged

/-- What holds of the parts of every pair holds of the parts of both lists. -/
theorem both_of_zip {α β : Type} {P : α → Prop} {Q : β → Prop} {as : List α} {bs : List β}
    (hlength : as.length = bs.length) (h : ∀ pair ∈ as.zip bs, P pair.1 ∧ Q pair.2) :
    (∀ a ∈ as, P a) ∧ ∀ b ∈ bs, Q b := by
  constructor
  · intro a ha
    rw [← List.map_fst_zip (Nat.le_of_eq hlength)] at ha
    obtain ⟨pair, hpair, rfl⟩ := List.mem_map.mp ha
    exact (h pair hpair).1
  · intro b hb
    rw [← List.map_snd_zip (Nat.le_of_eq hlength.symm)] at hb
    obtain ⟨pair, hpair, rfl⟩ := List.mem_map.mp hb
    exact (h pair hpair).2

theorem isFinite (h : heap.Interchanged role v w) : heap.IsFinite v ∧ heap.IsFinite w := by
  induction h with
  | same h => exact ⟨isFinite_of_pieces h, isFinite_of_pieces h⟩
  | refer _ hv hw | unrefer _ hv hw =>
    exact ⟨isFinite_of_pieces (pieces_of_cell? hv), isFinite_of_pieces (pieces_of_cell? hw)⟩
  | compare hv hw _ _ hleft hright =>
    constructor
    · apply IsFinite.of_pieces
      simp [pieces_of_cell? hv, Cell.pieces, hleft.1, hright.1]
    · apply IsFinite.of_pieces
      simp [pieces_of_cell? hw, Cell.pieces, hleft.2, hright.2]
  | ifElse hv hw _ _ _ htest hifTrue hifFalse =>
    constructor
    · apply IsFinite.of_pieces
      simp [pieces_of_cell? hv, Cell.pieces, htest.1, hifTrue.1, hifFalse.1]
    · apply IsFinite.of_pieces
      simp [pieces_of_cell? hw, Cell.pieces, htest.2, hifTrue.2, hifFalse.2]
  | list _ hv hw hlength _ ih =>
    obtain ⟨hleft, hright⟩ := both_of_zip hlength ih
    constructor
    · apply IsFinite.of_pieces
      rwa [pieces_of_list hv]
    · apply IsFinite.of_pieces
      rwa [pieces_of_list hw]
  | tuple _ hv hw hlength _ ih =>
    obtain ⟨hleft, hright⟩ := both_of_zip hlength ih
    constructor
    · apply IsFinite.of_pieces
      rwa [pieces_of_tuple hv]
    · apply IsFinite.of_pieces
      rwa [pieces_of_tuple hw]
  | mapping hv hw hkeys _ ih =>
    have hlength := congrArg List.length hkeys
    rw [List.length_map, List.length_map] at hlength
    obtain ⟨hleft, hright⟩ := both_of_zip (P := fun entry => heap.IsFinite entry.2)
      (Q := fun entry => heap.IsFinite entry.2) hlength ih
    constructor
    · apply IsFinite.of_pieces
      rw [pieces_of_mapping hv]
      exact List.forall_mem_map.mpr hleft
    · apply IsFinite.of_pieces
      rw [pieces_of_mapping hw]
      exact List.forall_mem_map.mpr hright

theorem map_eq_of_zip {α γ : Type} {f g : α → γ} {as bs : List α}
    (hlength : as.length = bs.length) (h : ∀ pair ∈ as.zip bs, f pair.1 = g pair.2) :
    as.map f = bs.map g := by
  apply List.ext_getElem
  · simpa using hlength
  · intro i hi hi'
    rw [List.length_map] at hi hi'
    rw [List.getElem_map, List.getElem_map]
    have hzip : i < (as.zip bs).length := by
      rw [List.length_zip]
      omega
    have hmem := List.getElem_mem hzip
    rw [List.getElem_zip] at hmem
    exact h _ hmem

theorem forall_zip_of_map_eq {α β γ : Type} {f : α → γ} {g : β → γ} {as : List α} {bs : List β}
    (h : as.map f = bs.map g) : ∀ pair ∈ as.zip bs, f pair.1 = g pair.2 := by
  intro pair hpair
  obtain ⟨i, hi, rfl⟩ := List.mem_iff_getElem.mp hpair
  rw [List.length_zip, Nat.lt_min] at hi
  have hget : (as.map f)[i]? = (bs.map g)[i]? := by rw [h]
  simpa [hi.1, hi.2] using hget

/-- Without fuel no tree is read. -/
theorem sameTree_zero (role : Role) : heap.SameTree 0 way way' v w role := by
  cases role <;> simp [SameTree, settingFrom, operandFrom, expressionFrom]

theorem sameTree_of_formula {f g : Formula} (hv : heap.cell? v = some (.formula f))
    (hw : heap.cell? w = some (.formula g))
    (h : ∀ fuel way way', heap.IsEntered way v → heap.IsEntered way' w →
      (formulaTree (heap.operandFrom fuel way) (heap.expressionFrom fuel way) f).referred =
        (formulaTree (heap.operandFrom fuel way') (heap.expressionFrom fuel way') g).referred)
    (hway : heap.IsEntered way v) (hway' : heap.IsEntered way' w) :
    heap.SameTree fuel way way' v w role := by
  cases fuel with
  | zero => exact sameTree_zero role
  | succ fuel =>
    cases role with
    | setting =>
      -- An expression among settings is read on its own, with a way and with fuel for itself.
      have htree := h (depth - 1) [] [] (.nil v) (.nil w)
      rw [← expressionFrom_formula hv, ← expressionFrom_formula hw] at htree
      simp only [SameTree, settingFrom_formula hv, settingFrom_formula hw, Setting.referred]
      exact congrArg Setting.expression htree
    | operand =>
      simp only [SameTree, operandFrom_formula hv, operandFrom_formula hw, Operand.referred]
      exact congrArg Operand.expression (h fuel way way' hway hway')
    | expression =>
      simp only [SameTree, expressionFrom_formula hv, expressionFrom_formula hw]
      exact h fuel way way' hway hway'

theorem sameTree_of_param {p : Param} (hv : heap.cell? v = some (.param p))
    (hw : heap.cell? w = some (.formula (.param v))) (hrole : role ≠ .expression) :
    heap.SameTree fuel way way' v w role ∧ heap.SameTree fuel way' way w v role := by
  cases fuel with
  | zero => exact ⟨sameTree_zero role, sameTree_zero role⟩
  | succ fuel =>
    cases role with
    | setting =>
      have htree : heap.expression w = .param v := expressionFrom_formula hw
      simp [SameTree, settingFrom_param hv, settingFrom_formula hw, htree, Setting.referred,
        Expression.referred]
    | operand =>
      simp [SameTree, operandFrom_param hv, operandFrom_formula hw, formulaTree, Operand.referred,
        Expression.referred]
    | expression => exact absurd rfl hrole

section

variable {items items' : List Value} {entries entries' : Entries} {inner inner' : List Nat}

theorem sameTree_of_list (hrole : role ≠ .expression) (hv : heap.content v = .list items)
    (hw : heap.content w = .list items') (henter : enter? way v = some inner)
    (henter' : enter? way' w = some inner') (hlength : items.length = items'.length)
    (h : ∀ pair ∈ items.zip items', heap.SameTree fuel inner inner' pair.1 pair.2 role) :
    heap.SameTree (fuel + 1) way way' v w role := by
  cases role with
  | setting =>
    simp only [SameTree, settingFrom_of_list hv henter, settingFrom_of_list hw henter',
      Setting.referred, referredSettings_eq_map, List.map_map]
    exact congrArg Setting.list (map_eq_of_zip hlength h)
  | operand =>
    simp only [SameTree, operandFrom_of_list hv henter, operandFrom_of_list hw henter',
      Operand.referred, referredOperands_eq_map, List.map_map]
    exact congrArg Operand.list (map_eq_of_zip hlength h)
  | expression => exact absurd rfl hrole

theorem sameTree_of_tuple (hrole : role ≠ .expression) (hv : heap.content v = .tuple items)
    (hw : heap.content w = .tuple items') (henter : enter? way v = some inner)
    (henter' : enter? way' w = some inner') (hlength : items.length = items'.length)
    (h : ∀ pair ∈ items.zip items', heap.SameTree fuel inner inner' pair.1 pair.2 role) :
    heap.SameTree (fuel + 1) way way' v w role := by
  cases role with
  | setting =>
    simp only [SameTree, settingFrom_of_tuple hv henter, settingFrom_of_tuple hw henter',
      Setting.referred, referredSettings_eq_map, List.map_map]
    exact congrArg Setting.tuple (map_eq_of_zip hlength h)
  | operand =>
    simp only [SameTree, operandFrom_of_tuple hv henter, operandFrom_of_tuple hw henter',
      Operand.referred, referredOperands_eq_map, List.map_map]
    exact congrArg Operand.tuple (map_eq_of_zip hlength h)
  | expression => exact absurd rfl hrole

theorem sameTree_of_mapping (hv : heap.content v = .mapping entries)
    (hw : heap.content w = .mapping entries') (henter : enter? way v = some inner)
    (henter' : enter? way' w = some inner') (hkeys : entries.map Prod.fst = entries'.map Prod.fst)
    (h : ∀ pair ∈ entries.zip entries',
      heap.SameTree fuel inner inner' pair.1.2 pair.2.2 .setting) :
    heap.SameTree (fuel + 1) way way' v w .setting := by
  simp only [SameTree, settingFrom_of_mapping hv henter, settingFrom_of_mapping hw henter',
    Setting.referred, referredEntries_eq_map, List.map_map]
  have hlength := congrArg List.length hkeys
  rw [List.length_map, List.length_map] at hlength
  have hfst := forall_zip_of_map_eq hkeys
  exact congrArg Setting.mapping
    (map_eq_of_zip hlength fun pair hpair => Prod.ext (hfst pair hpair) (h pair hpair))

end

/-- The values make the same tree but for references, whatever is around them. -/
theorem sameTree (h : heap.Interchanged role v w) (fuel : Nat) (way way' : List Nat)
    (hway : heap.IsEntered way v) (hway' : heap.IsEntered way' w) :
    heap.SameTree fuel way way' v w role := by
  have hfinite := h.isFinite
  induction h generalizing fuel way way' with
  | @same role v h =>
    cases role with
    | setting => exact congrArg _ (settingFrom_of_pieces h hway hway')
    | operand => exact congrArg _ (operandFrom_of_pieces h hway hway')
    | expression => exact congrArg _ (expressionFrom_of_pieces h)
  | refer hrole hv hw => exact (sameTree_of_param hv hw hrole).1
  | unrefer hrole hv hw => exact (sameTree_of_param hw hv hrole).2
  | compare hv hw hleft hright ihleft ihright =>
    refine sameTree_of_formula hv hw (fun fuel way way' hway hway' => ?_) hway hway'
    have hpieces := pieces_of_cell? hv
    have hpieces' := pieces_of_cell? hw
    have hl := ihleft fuel way way' (hway.piece (by simp [hpieces, Cell.pieces]))
      (hway'.piece (by simp [hpieces', Cell.pieces])) hleft.isFinite
    have hr := ihright fuel way way' (hway.piece (by simp [hpieces, Cell.pieces]))
      (hway'.piece (by simp [hpieces', Cell.pieces])) hright.isFinite
    simp only [SameTree] at hl hr
    simp only [formulaTree, Expression.referred, hl, hr]
  | ifElse hv hw htest hifTrue hifFalse ihtest ihifTrue ihifFalse =>
    refine sameTree_of_formula hv hw (fun fuel way way' hway hway' => ?_) hway hway'
    have hpieces := pieces_of_cell? hv
    have hpieces' := pieces_of_cell? hw
    have ht := ihtest fuel way way' (hway.piece (by simp [hpieces, Cell.pieces]))
      (hway'.piece (by simp [hpieces', Cell.pieces])) htest.isFinite
    have hone := ihifTrue fuel way way' (hway.piece (by simp [hpieces, Cell.pieces]))
      (hway'.piece (by simp [hpieces', Cell.pieces])) hifTrue.isFinite
    have htwo := ihifFalse fuel way way' (hway.piece (by simp [hpieces, Cell.pieces]))
      (hway'.piece (by simp [hpieces', Cell.pieces])) hifFalse.isFinite
    simp only [SameTree] at ht hone htwo
    simp only [formulaTree, Expression.referred, ht, hone, htwo]
  | @list role v w items items' hrole hv hw hlength hitems ih =>
    cases fuel with
    | zero => exact sameTree_zero role
    | succ fuel =>
      obtain ⟨inner, henter, hinner⟩ := exists_enter? hfinite.1 hway
      obtain ⟨inner', henter', hinner'⟩ := exists_enter? hfinite.2 hway'
      rw [pieces_of_list hv] at hinner
      rw [pieces_of_list hw] at hinner'
      have hsame : ∀ pair ∈ items.zip items',
          heap.SameTree fuel inner inner' pair.1 pair.2 role := by
        intro pair hpair
        exact ih pair hpair fuel inner inner' (hinner _ (List.of_mem_zip hpair).1)
          (hinner' _ (List.of_mem_zip hpair).2) (hitems pair hpair).isFinite
      exact sameTree_of_list hrole hv hw henter henter' hlength hsame
  | @tuple role v w items items' hrole hv hw hlength hitems ih =>
    cases fuel with
    | zero => exact sameTree_zero role
    | succ fuel =>
      obtain ⟨inner, henter, hinner⟩ := exists_enter? hfinite.1 hway
      obtain ⟨inner', henter', hinner'⟩ := exists_enter? hfinite.2 hway'
      rw [pieces_of_tuple hv] at hinner
      rw [pieces_of_tuple hw] at hinner'
      have hsame : ∀ pair ∈ items.zip items',
          heap.SameTree fuel inner inner' pair.1 pair.2 role := by
        intro pair hpair
        exact ih pair hpair fuel inner inner' (hinner _ (List.of_mem_zip hpair).1)
          (hinner' _ (List.of_mem_zip hpair).2) (hitems pair hpair).isFinite
      exact sameTree_of_tuple hrole hv hw henter henter' hlength hsame
  | @mapping v w entries entries' hv hw hkeys hvalues ih =>
    cases fuel with
    | zero => exact sameTree_zero .setting
    | succ fuel =>
      obtain ⟨inner, henter, hinner⟩ := exists_enter? hfinite.1 hway
      obtain ⟨inner', henter', hinner'⟩ := exists_enter? hfinite.2 hway'
      rw [pieces_of_mapping hv] at hinner
      rw [pieces_of_mapping hw] at hinner'
      have hsame : ∀ pair ∈ entries.zip entries',
          heap.SameTree fuel inner inner' pair.1.2 pair.2.2 .setting := by
        intro pair hpair
        exact ih pair hpair fuel inner inner'
          (hinner _ (List.mem_map_of_mem (List.of_mem_zip hpair).1))
          (hinner' _ (List.mem_map_of_mem (List.of_mem_zip hpair).2)) (hvalues pair hpair).isFinite
      exact sameTree_of_mapping hv hw henter henter' hkeys hsame

end Interchanged

theorem referred_setting (h : heap.Interchanged .setting v w) :
    (heap.setting v).referred = (heap.setting w).referred :=
  h.sameTree depth [] [] (.nil v) (.nil w)

end Heap

section

variable {s t : Session} {role : Role} {v w : Value} {p : Param}

/-- A param and its expression can stand for each other. -/
theorem interchanged_newReference (hv : s.heap.cell? v = some (.param p))
    (hrun : (newReference v).on s = (.ok w, t)) (hrole : role ≠ .expression) :
    t.heap.Interchanged role v w ∧ t.heap.Interchanged role w v := by
  rw [newReference, on_allocate] at hrun
  obtain ⟨rfl, rfl⟩ := hrun
  have hv' := Heap.extends_allocate s.heap (.formula (.param v)) v _ hv
  have hw := Heap.cell?_allocate_new s.heap (.formula (.param v))
  exact ⟨.refer hrole hv' hw, .unrefer hrole hw hv'⟩

theorem on_toWireValue (call : Caller) (v : Value) (s : Session) :
    (callBuiltin call .toWireValue [v] []).on s = (wireOf call v).on s := by
  have hbind : Builtin.toWireValue.signature.bind [v] [] = .ok ⟨[("value", v)], [], []⟩ := rfl
  have hvalue : (Arguments.mk [("value", v)] [] []).get "value" = v := rfl
  simp only [callBuiltin, Builtin.receivesObject, Builtin.isConstructor, Bool.false_eq_true,
    if_false, List.nil_append, hbind, on_bind, on_ofExcept, next_ok, runBuiltin, hvalue]

/-- With params in place of references to them, or the other way round, a value is sent as the same
text, in the same session, or it fails in the same way. -/
theorem toWireValue_eq_of_interchanged (call : Caller) (h : s.heap.Interchanged .setting v w) :
    (callBuiltin call .toWireValue [v] []).on s = (callBuiltin call .toWireValue [w] []).on s := by
  have hwire : (s.heap.setting v).wire (asking call) = (s.heap.setting w).wire (asking call) := by
    calc
      (s.heap.setting v).wire (asking call)
      _ = (s.heap.setting v).referred.wire (asking call) := (Setting.wire_referred _ _).symm
      _ = (s.heap.setting w).referred.wire (asking call) := by rw [Heap.referred_setting h]
      _ = (s.heap.setting w).wire (asking call) := Setting.wire_referred _ _
  simp only [on_toWireValue, wireOf, on_bind, on_heap, next_ok, hwire]

/-- Options with the param `REGION`, and the same ones with references to it and back: a list of it
and a tuple, a choice by a comparison of it with a list of itself. -/
def interchangedSession : Session :=
  { Session.fresh default default with heap := { Heap.initial with cells :=
      #[.tuple [], .registry .empty,
        .param ⟨.string, .text "REGION", .null, .null, .null, .null, .null⟩,
        .formula (.param (.ref 2)),
        .formula (.compare .equal (.ref 3) (.list [.ref 2, .int 1])),
        .formula (.ifElse (.ref 4) (.ref 3) (.ref 2)),
        .mapping [(.text "places", .list [.ref 2, .tuple [.ref 3]]), (.text "place", .ref 5)],
        .formula (.compare .equal (.ref 3) (.list [.ref 3, .int 1])),
        .formula (.ifElse (.ref 7) (.ref 2) (.ref 3)),
        .mapping [(.text "places", .list [.ref 3, .tuple [.ref 2]]), (.text "place", .ref 8)]] } }

theorem toWireValue_region_interchanged :
    let call : Caller := fun _ _ _ => throw .noValue
    (callBuiltin call .toWireValue [.ref 6] []).on interchangedSession =
        (callBuiltin call .toWireValue [.ref 9] []).on interchangedSession ∧
      ((callBuiltin call .toWireValue [.ref 6] []).on interchangedSession).1.isOk = true := by
  intro call
  have hrefer : ∀ role ≠ Role.expression,
      interchangedSession.heap.Interchanged role (.ref 2) (.ref 3) := by
    intro role hrole
    exact .refer hrole rfl rfl
  have hunrefer : ∀ role ≠ Role.expression,
      interchangedSession.heap.Interchanged role (.ref 3) (.ref 2) := by
    intro role hrole
    exact .unrefer hrole rfl rfl
  have hoperands : interchangedSession.heap.Interchanged .operand
      (.list [.ref 2, .int 1]) (.list [.ref 3, .int 1]) := by
    refine .list nofun rfl rfl rfl ?_
    simp [hrefer, Heap.Interchanged.same (v := .int 1) rfl]
  have htest : interchangedSession.heap.Interchanged .expression (.ref 4) (.ref 7) :=
    .compare rfl rfl (.same rfl) hoperands
  have hchoice : interchangedSession.heap.Interchanged .setting (.ref 5) (.ref 8) :=
    .ifElse rfl rfl htest (hunrefer _ nofun) (hrefer _ nofun)
  have hplaces : interchangedSession.heap.Interchanged .setting
      (.list [.ref 2, .tuple [.ref 3]]) (.list [.ref 3, .tuple [.ref 2]]) := by
    have hinner : interchangedSession.heap.Interchanged .setting
        (.tuple [.ref 3]) (.tuple [.ref 2]) := by
      refine .tuple nofun rfl rfl rfl ?_
      simp [hunrefer]
    refine .list nofun rfl rfl rfl ?_
    simp [hrefer, hinner]
  refine ⟨toWireValue_eq_of_interchanged call (.mapping rfl rfl rfl ?_), by decide +kernel⟩
  simp [hplaces, hchoice]

end

end FunctionManifest
