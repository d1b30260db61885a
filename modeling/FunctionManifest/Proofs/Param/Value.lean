import FunctionManifest.Proofs.Language.Asking
import FunctionManifest.Proofs.Text.Token

/-!
# Asking for values

The value of a param or a secret is read each time it is asked for: from the environment, or else
from the default as it is printed.
-/

namespace FunctionManifest

open Eval

variable {call : Caller} {s : Session} {v : Value} {cell : Cell} {p : Param} {secret : Secret}
  {label name text : Text}

/-! ## From the attribute to the reading -/

theorem stored?_value (plain : cell.attributes = []) (hcell : s.heap.cell? v = some cell)
    (hfixed : cell.fixed? "value" = none) : s.heap.stored? v "value" = none := by
  have hexport : Heap.exportedName? "value" = none := by decide
  have hstored : cell.stored? "value" = none := by rw [Cell.stored?_of_plain plain, hfixed]
  simp [Heap.stored?, hcell, hstored, hexport]

theorem method?_value_param (p : Param) : (Cell.param p).method? v "value" = none := by
  have hnamed : ∀ kind, Method.named? (Method.ofParam kind) "value" = none := by
    intro kind
    cases kind <;> decide
  exact congrArg (Option.map _) (hnamed p.kind)

theorem method?_value_secret (secret : Secret) : (Cell.secret secret).method? v "value" = none := by
  have hnamed : ∀ json, Method.named? [.secretSpec json] "value" = none := by
    intro json
    cases json <;> decide
  exact congrArg (Option.map _) (hnamed secret.json)

theorem on_value_param (hcell : s.heap.cell? v = some (.param p)) :
    (getAttribute call v "value").on s = (readParam call p).on s := by
  have hstored := stored?_value rfl hcell rfl
  simp only [getAttribute, attribute?, ready?, on_bind, on_heap, next_ok, hstored, hcell,
    Option.bind_some, method?_value_param, on_pure, on_cell?, Text.spelled_ofString, computed?]
  obtain ⟨_ | _, _⟩ := (readParam call p).on s <;> rfl

theorem on_value_secret (hcell : s.heap.cell? v = some (.secret secret)) :
    (getAttribute call v "value").on s = next (secret.read s.heap s.environment, s) intern := by
  have hstored := stored?_value rfl hcell rfl
  simp only [getAttribute, attribute?, ready?, on_bind, on_heap, next_ok, hstored, hcell,
    Option.bind_some, method?_value_secret, on_pure, on_cell?, Text.spelled_ofString, computed?,
    on_get, on_ofExcept]
  cases secret.read s.heap s.environment <;> rfl

/-! ## From the reading to the value -/

/-- The session with a warning about a param behind. -/
def Session.warned (s : Session) (text : Text) : Session :=
  { s with log := s.log ++ [⟨.warning, "funcstack.params", text⟩] }

theorem on_ofReading_of_none {reading : Reading} (h : reading.warnings = []) :
    (ofReading reading).on s = (reading.result, s) := by
  simp [ofReading, h]

theorem on_ofReading_of_warning {reading : Reading} (h : reading.warnings = [text]) :
    (ofReading reading).on s = (reading.result, s.warned text) := by
  simp [ofReading, h, Session.warned]

theorem on_readParam :
    (readParam call p).on s =
      next ((p.read s.heap (printed call) s.environment).on s)
        fun reading => ofReading reading >>= intern := by
  simp only [readParam, on_bind, on_get, next_ok]

theorem on_value_of_read {reading : Reading} (hcell : s.heap.cell? v = some (.param p))
    (hread : (p.read s.heap (printed call) s.environment).on s = (.ok reading, s)) :
    (getAttribute call v "value").on s = (ofReading reading >>= intern).on s := by
  rw [on_value_param hcell, on_readParam, hread, next_ok]

/-- A value that is read without a warning is given as it is, unless it is new. -/
theorem on_value_of_kept {w : Value} (hcell : s.heap.cell? v = some (.param p))
    (hread : (p.read s.heap (printed call) s.environment).on s = (.ok (.ok w), s))
    (hkept : w.IsKept) : (getAttribute call v "value").on s = (.ok w, s) := by
  rw [on_value_of_read hcell hread, on_bind, on_ofReading_of_none rfl]
  simp [Reading.ok, hkept s.heap]

/-- A list that is read is a new one each time. -/
theorem on_value_of_texts {items : List Text} (hcell : s.heap.cell? v = some (.param p))
    (hread : (p.read s.heap (printed call) s.environment).on s = (.ok (.ok (.texts items)), s)) :
    (getAttribute call v "value").on s =
      (.ok (s.heap.allocate (.list (items.map .text))).1,
        { s with heap := (s.heap.allocate (.list (items.map .text))).2 }) := by
  have hkept : ∀ item ∈ items.map Value.text, item.IsKept :=
    List.forall_mem_map.mpr fun _ _ _ => rfl
  rw [on_value_of_read hcell hread, on_bind, on_ofReading_of_none rfl]
  simp only [Reading.ok, Value.texts, next_ok, on_intern, Heap.intern,
    Heap.internItems_of_kept hkept]

/-! ## Printing atoms -/

/-- How a value is printed that is neither a collection nor an object. -/
def Value.atomText : Value → Except Failure Text
  | .text t => .ok t
  | .bool b => .ok (if b then "True" else "False")
  | .int n => intText n
  | .float x => .ok x.text
  | _ => .ok "None"

def Value.IsAtom : Value → Prop
  | .list _ | .tuple _ | .mapping _ | .ref _ => False
  | _ => True

theorem on_printed_atom (h : v.IsAtom) : (printed call v).on s = (v.atomText, s) := by
  cases v with
  | list | tuple | mapping | ref => exact h.elim
  | _ =>
    simp [printed, printDepth, printedFrom, Heap.cell?, Heap.shown, Heap.depth, Heap.shownFrom,
      Value.atomText]

/-! ## The text of a param -/

/-- The text that a param is read from. -/
def Param.textIn (p : Param) (environment : Environment) (name : Text) :
    Except Failure (Option Text) :=
  match environment.text? name with
  | some raw => .ok (some raw)
  | none => if p.default.isNull then .ok none else p.default.atomText.map some

theorem textIn_of_set {environment : Environment} (h : environment.text? name = some text) :
    p.textIn environment name = .ok (some text) := by
  rw [Param.textIn, h]

theorem textIn_of_unset {environment : Environment} (h : environment.text? name = none)
    (hnull : p.default.isNull = false) (htext : p.default.atomText = .ok text) :
    p.textIn environment name = .ok (some text) := by
  simp [Param.textIn, h, hnull, htext, Except.map]

theorem rawText?_text (environment : Environment) (heap : Heap)
    (hname : Environment.keep label = .ok name) :
    environment.rawText? heap (.text label) = .ok (environment.text? name) := by
  rw [Environment.rawText?, Environment.variableName, hname]
  rfl

section

variable (hlabel : p.name = .text label) (hname : Environment.keep label = .ok name)

include hlabel hname

theorem rawText?_eq (environment : Environment) :
    environment.rawText? s.heap p.name = .ok (environment.text? name) := by
  rw [hlabel, rawText?_text environment s.heap hname]

theorem on_text? (hdefault : p.default.IsAtom) :
    (p.text? s.heap (printed call) s.environment).on s = (p.textIn s.environment name, s) := by
  simp only [Param.text?, on_bind, on_ofExcept, rawText?_eq hlabel hname, next_ok, Param.textIn]
  cases htext : s.environment.text? name with
  | some raw => simp
  | none =>
    cases hvalue : p.default with
    | null => rfl
    | _ =>
      rw [hvalue] at hdefault
      simp only [on_bind, on_printed_atom hdefault, Value.isNull]
      cases Value.atomText _ <;> rfl

theorem readListParam_of_set {heap : Heap} {environment : Environment}
    (htext : environment.text? name = some text) :
    p.readListParam heap environment = .ok (.texts (readList text)) := by
  rw [Param.readListParam, hlabel, rawText?_text environment heap hname, htext]
  rfl

theorem readListParam_of_unset {heap : Heap} {environment : Environment} {items : List Text}
    (htext : environment.text? name = none)
    (hitems : heap.items? p.default = some (items.map .text)) :
    p.readListParam heap environment = .ok (.texts items) := by
  simp only [Param.readListParam, hlabel, rawText?_text environment heap hname, htext]
  cases hvalue : p.default with
  | null =>
    rw [hvalue] at hitems
    cases hitems
  | _ =>
    rw [hvalue] at hitems
    simp only [Heap.items, hitems]
    rfl

variable (hdefault : p.default.IsAtom) (zero : Value) (read : Text → Text → Reading)

include hdefault

/-- The text is read if there is one, and the zero is given otherwise. -/
theorem on_readText :
    (p.readText s.heap (printed call) s.environment zero read).on s =
      ((p.textIn s.environment name).map fun
        | none => .ok zero
        | some text => read label text, s) := by
  simp only [Param.readText, on_bind, on_text? hlabel hname hdefault, hlabel]
  obtain _ | ⟨_ | text⟩ := p.textIn s.environment name <;> rfl

theorem on_readText_of_text (htext : p.textIn s.environment name = .ok (some text)) :
    (p.readText s.heap (printed call) s.environment zero read).on s =
      (.ok (read label text), s) := by
  rw [on_readText hlabel hname hdefault, htext]
  rfl

end

end FunctionManifest
