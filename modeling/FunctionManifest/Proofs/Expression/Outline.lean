import FunctionManifest.Language.Access
import FunctionManifest.Proofs.Session.Run
import FunctionManifest.Proofs.Text.Token

/-!
# Outlines

An outline is what rendering makes of an expression or an operand: the values in it are replaced by
their names and texts. A param and a reference to it have one outline, as have a list and a tuple of
the same items. Rendering writes the outline and changes nothing.
-/

namespace FunctionManifest

inductive Outline where
  | null
  | bool (b : Bool)
  | int (n : Int)
  | float (x : Binary64)
  | text (t : Text)
  /-- A param by its name. -/
  | name (t : Text)
  /-- Another literal, as it is printed. -/
  | word (t : Text)
  | list (items : List Outline)
  | compare (op : Comparator) (left right : Outline)
  | ifElse (test ifTrue ifFalse : Outline)

namespace Outline

mutual

def rendered : Outline → Text
  | .null => "null"
  | .bool b => if b then "true" else "false"
  | .int n => Text.ofInt n
  | .float x => x.text
  | .text t => Json.quoted .unicode t
  | .name t | .word t => t
  | .list items => bracketed (renderedAll items)
  | .compare op left right => left.rendered ++ " " ++ op.symbol ++ " " ++ right.rendered
  | .ifElse test ifTrue ifFalse =>
    test.rendered ++ " ? " ++ ifTrue.rendered ++ " : " ++ ifFalse.rendered

def renderedAll : List Outline → List Text
  | [] => []
  | item :: rest => item.rendered :: renderedAll rest

end

mutual

/-- The names of the params in an outline. -/
def names : Outline → List Text
  | .name t => [t]
  | .list items => namesOfAll items
  | .compare _ left right => left.names ++ right.names
  | .ifElse test ifTrue ifFalse => test.names ++ ifTrue.names ++ ifFalse.names
  | _ => []

def namesOfAll : List Outline → List Text
  | [] => []
  | item :: rest => item.names ++ namesOfAll rest

end

mutual

/-- The printed literals in an outline that are neither numbers nor texts. -/
def words : Outline → List Text
  | .word t => [t]
  | .list items => wordsOfAll items
  | .compare _ left right => left.words ++ right.words
  | .ifElse test ifTrue ifFalse => test.words ++ ifTrue.words ++ ifFalse.words
  | _ => []

def wordsOfAll : List Outline → List Text
  | [] => []
  | item :: rest => item.words ++ wordsOfAll rest

end

end Outline

/-! ## Identifiers -/

namespace Text

/-- Among the first 128 characters, letters, digits and the underscore; all others may do. -/
def isNameLetter (c : Letter) : Bool := 128 ≤ c.code || c.isIn fun c => c.isAlphanum || c = '_'

/-- Every identifier is one of these. -/
def IsIdentifier (name : Text) : Prop :=
  name ≠ [] ∧ (∀ c ∈ name.head?, c.isIn Char.isDigit = false) ∧ ∀ c ∈ name, isNameLetter c = true

instance (name : Text) : Decidable (IsIdentifier name) :=
  inferInstanceAs (Decidable (_ ∧ _ ∧ _))

theorem isWord_of_isIdentifier {name : Text} (h : IsIdentifier name) : IsWord name := by
  have hnone : ∀ d ∈ ([.char ' ', .char ',', .char '[', .char ']', .char '"'] : List Letter),
      isNameLetter d = false := by decide
  refine ⟨h.1, fun c hc => decide_eq_true fun hmem => ?_⟩
  have hletter := h.2.2 c hc
  rw [hnone c hmem] at hletter
  cases hletter

end Text

/-! ## Outlines of trees -/

namespace Heap

/-- The name of a param, if it is a text. -/
def spokenName? (heap : Heap) (p : Value) : Option Text :=
  match heap.nameOf p with
  | .ok (.text name) => some name
  | _ => none

/-- How a literal of no particular kind is printed. -/
def printedLiteral? (heap : Heap) (v : Value) : Option Text :=
  match v, heap.cell? v with
  | .text _, _ | _, some (.formula _) | _, some (.failure ..) => none
  | _, some (.pattern p _) => some p.template
  | v, _ => (heap.shown v).toOption

/-- The outline of a literal that has no spelling of its own. -/
def literal? (heap : Heap) : Value → Option Outline
  | .float x => some (.float x)
  | v => (heap.printedLiteral? v).map .word

end Heap

mutual

/-- The outline of an expression that is made of references, comparisons and ternaries. -/
def Expression.outline? (heap : Heap) : Expression → Option Outline
  | .base | .foreign _ | .endless => none
  | .param p => (heap.spokenName? p).map .name
  | .compare op left right => do
    return .compare op (← left.outline? heap) (← right.outline? heap)
  | .ifElse test ifTrue ifFalse => do
    return .ifElse (← test.outline? heap) (← ifTrue.outline? heap) (← ifFalse.outline? heap)

/-- The outline of an operand. An integer may be too long to be written. -/
def Operand.outline? (heap : Heap) : Operand → Option Outline
  | .expression e => e.outline? heap
  | .param p => (heap.spokenName? p).map .name
  | .null => some .null
  | .bool b => some (.bool b)
  | .int n => if digitLimit < Binary64.digitCount n.natAbs then none else some (.int n)
  | .text t => some (.text t)
  | .list items | .tuple items => (outlines? heap items).map .list
  | .other v => heap.literal? v
  | .endless => none

def outlines? (heap : Heap) : List Operand → Option (List Outline)
  | [] => some []
  | item :: rest => do return (← item.outline? heap) :: (← outlines? heap rest)

end

/-! ## Rendering -/

section

variable (call : Caller) {s : Session}

theorem on_asking_name {p : Value} {name : Text} (h : s.heap.spokenName? p = some name) :
    ((asking call).name p).on s = (.ok (.text name), s) := by
  unfold Heap.spokenName? at h
  split at h
  · rename_i hname
    cases h
    exact (Eval.on_reading _ s).trans (by rw [hname])
  · cases h

theorem on_printedFrom {v : Value} {t : Text} (h : s.heap.printedLiteral? v = some t)
    (fuel : Nat) : (printedFrom call (fuel + 1) v).on s = (.ok t, s) := by
  unfold Heap.printedLiteral? at h
  simp only [printedFrom, Eval.on_bind, Eval.on_heap, Eval.next_ok]
  split at h
  · cases h
  · cases h
  · cases h
  · rename_i hpattern
    cases h
    simp [hpattern]
  · rename_i htext hformula hfailure hpattern
    have hshown : ∀ {result : Except Failure Text}, result.toOption = some t → result = .ok t := by
      rintro (failure | shown) hresult <;> cases hresult
      rfl
    simp [hshown h]

theorem on_asking_printed {v : Value} {t : Text} (h : s.heap.printedLiteral? v = some t) :
    ((asking call).printed v).on s = (.ok t, s) := on_printedFrom call h _

theorem on_asking_literal {v : Value} {x : Outline} (h : s.heap.literal? v = some x) :
    ((asking call).printed v).on s = (.ok x.rendered, s) := by
  unfold Heap.literal? at h
  split at h
  · rename_i number
    cases h
    exact Eval.on_reading (·.shown (.float number)) s
  · obtain ⟨printed, hprinted, rfl⟩ := Option.map_eq_some_iff.mp h
    exact on_asking_printed call hprinted

theorem on_joinable (index : Nat) (items : List Text) :
    ((asking call).joinable index (items.map Value.text)).on s = (.ok items, s) := by
  induction items generalizing index with
  | nil => rfl
  | cons item rest ih => simp [Asking.joinable, ih]

mutual

theorem on_expression_render :
    (e : Expression) → {x : Outline} → e.outline? s.heap = some x →
      (e.render (asking call)).on s = (.ok (.text x.rendered), s)
  | .base, _, h | .foreign _, _, h | .endless, _, h => by cases h
  | .param p, x, h => by
    obtain ⟨name, hname, rfl⟩ := Option.map_eq_some_iff.mp h
    exact on_asking_name call hname
  | .compare op left right, x, h => by
    simp only [Expression.outline?, Option.bind_eq_bind, Option.bind_eq_some_iff, Option.pure_def,
      Option.some.injEq] at h
    obtain ⟨l, hl, r, hr, rfl⟩ := h
    have hleft := on_expression_render left hl
    have hright := on_operand_render right hr
    simp [Expression.render, hleft, hright, Asking.text, Outline.rendered]
  | .ifElse test ifTrue ifFalse, x, h => by
    simp only [Expression.outline?, Option.bind_eq_bind, Option.bind_eq_some_iff, Option.pure_def,
      Option.some.injEq] at h
    obtain ⟨c, hc, a, ha, b, hb, rfl⟩ := h
    have htest := on_expression_render test hc
    have hifTrue := on_operand_render ifTrue ha
    have hifFalse := on_operand_render ifFalse hb
    simp [Expression.render, htest, hifTrue, hifFalse, Asking.text, Outline.rendered]

theorem on_operand_render :
    (o : Operand) → {x : Outline} → o.outline? s.heap = some x →
      (o.render (asking call)).on s = (.ok (.text x.rendered), s)
  | .expression e, x, h => on_expression_render e h
  | .param p, x, h => by
    obtain ⟨name, hname, rfl⟩ := Option.map_eq_some_iff.mp h
    exact on_asking_name call hname
  | .null, x, h | .bool _, x, h | .text _, x, h => by
    cases h
    rfl
  | .int n, x, h => by
    unfold Operand.outline? at h
    split at h
    · cases h
    · rename_i hshort
      cases h
      simp [Operand.render, intText, if_neg hshort, Outline.rendered, Text.ofInt]
  | .list items, x, h | .tuple items, x, h => by
    obtain ⟨xs, hxs, rfl⟩ := Option.map_eq_some_iff.mp h
    have hitems := on_renderOperands items hxs
    simp [Operand.render, hitems, on_joinable, Outline.rendered]
  | .other v, x, h => by
    simp [Operand.render, on_asking_literal call h]
  | .endless, x, h => by cases h

theorem on_renderOperands :
    (items : List Operand) → {xs : List Outline} → outlines? s.heap items = some xs →
      (renderOperands (asking call) items).on s =
        (.ok ((Outline.renderedAll xs).map Value.text), s)
  | [], xs, h => by
    cases h
    rfl
  | item :: rest, xs, h => by
    simp only [outlines?, Option.bind_eq_bind, Option.bind_eq_some_iff, Option.pure_def,
      Option.some.injEq] at h
    obtain ⟨x, hx, xs, hxs, rfl⟩ := h
    have hitem := on_operand_render item hx
    have hrest := on_renderOperands rest hxs
    simp [renderOperands, hitem, hrest, Outline.renderedAll]

end

end

end FunctionManifest
