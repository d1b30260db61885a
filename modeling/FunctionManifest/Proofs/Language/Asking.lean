import FunctionManifest.Language.Call
import FunctionManifest.Proofs.Session.Making

/-!
# Asking objects

What comes of asking an object for one of its parts, and of asking it to do something: a method is
run on the object and the arguments.
-/

namespace FunctionManifest

open Eval

@[simp] theorem Text.spelled_ofString (s : String) : (Text.ofString s).spelled = s := by
  simp [Text.spelled, Text.ofString, Text.ofChars, Function.comp_def, Letter.nearest]

/-- An object that was given no attributes has those that its type says. -/
theorem Cell.stored?_of_plain {cell : Cell} (h : cell.attributes = []) (name : String) :
    cell.stored? (Text.ofString name) = cell.fixed? name := by
  simp [Cell.stored?, h, Assoc.get?, Assoc.lookBy]

namespace Heap

variable {heap later : Heap} {v : Value} {cell : Cell} {name : Text} {m : Method}

theorem stored?_of_cell? (hcell : heap.cell? v = some cell) {w : Value}
    (h : cell.stored? name = some w) : heap.stored? v name = some w := by
  simp [stored?, hcell, h]

/-- Under this name the object has a method, and nothing else. -/
structure HasMethod (heap : Heap) (v : Value) (name : Text) (m : Method) : Prop where
  stored : heap.stored? v name = none
  method : (heap.cell? v).bind (·.method? v name) = some (.method m (some v))

theorem HasMethod.of_cell? {name : String} (hcell : heap.cell? v = some cell)
    (hplain : cell.attributes = []) (hfixed : cell.fixed? name = none)
    (hexport : exportedName? name = none) (hmethod : Method.named? cell.methods name = some m) :
    heap.HasMethod v name m where
  stored := by
    simp [stored?, hcell, Cell.stored?_of_plain hplain, hfixed, hexport]
  method := by
    rw [hcell, Option.bind_some]
    cases cell with
    | builtin b => simp [Cell.methods, Cell.constructor?, Method.named?] at hmethod
    | _ => simp [Cell.method?, hmethod]

theorem HasMethod.mono (hlater : later.Extends heap) (h : heap.HasMethod v name m) :
    later.HasMethod v name m := by
  obtain ⟨cell, hcell, hmethod⟩ := Option.bind_eq_some_iff.mp h.method
  refine ⟨?_, by rw [hlater _ _ hcell]; exact hmethod⟩
  have hstored := h.stored
  rwa [stored?, hcell, ← hlater _ _ hcell, ← stored?] at hstored

end Heap

variable {s : Session} {heap : Heap} {v : Value} {cell : Cell} {name : Text} {m : Method}
  {fuel : Nat} {positional : List Value} {arguments : Arguments} {made : Heap → Value → Prop}

/-- Calling a method is running it on its object and the arguments. -/
theorem on_callValue_method {self : Option Value} (h : s.heap.cell? v = some (.method m self))
    (positional : List Value) (keywords : Fields) :
    (callValue (fuel + 1) v positional keywords).on s =
      next (m.signature.bind (self.toList ++ positional) keywords, s)
        (runMethod (callValue fuel) m) := by
  unfold callValue
  simp [h]

/-- A method is made an object of its own before it is called. -/
theorem on_callAttribute_method (h : s.heap.HasMethod v name m) (positional : List Value) :
    (callAttribute (callValue (fuel + 1)) v name positional).on s =
      next (m.signature.bind (v :: positional) [],
        { s with heap := (s.heap.allocate (.method m (some v))).2 })
        (runMethod (callValue fuel) m) := by
  let asked : Session := { s with heap := (s.heap.allocate (.method m (some v))).2 }
  have hready : (ready? v name).on s = (.ok (some (.ref s.heap.cells.size)), asked) := by
    simp [ready?, h.stored, h.method]
    exact ⟨rfl, rfl⟩
  have hnew : asked.heap.cell? (.ref s.heap.cells.size) = some (.method m (some v)) :=
    Heap.cell?_allocate_new _ _
  rw [callAttribute, on_bind, hready, next_ok]
  exact on_callValue_method hnew positional []

theorem on_getAttribute_stored {call : Caller} {w : Value} (h : s.heap.stored? v name = some w) :
    (getAttribute call v name).on s = (.ok w, s) := by
  simp [getAttribute, attribute?, ready?, h]

/-! ## Making -/

theorem makes_callAttribute (h : heap.HasMethod v name m)
    (hbind : m.signature.bind (v :: positional) [] = .ok arguments)
    (hrun : Makes heap (runMethod (callValue fuel) m arguments) made) :
    Makes heap (callAttribute (callValue (fuel + 1)) v name positional) made := by
  intro s a t hs hcall
  rw [on_callAttribute_method (h.mono hs), hbind, next_ok] at hcall
  have hext := Heap.extends_allocate s.heap (.method m (some v))
  obtain ⟨hext', hmade⟩ := hrun _ a t (hext.trans hs) hcall
  exact ⟨hext'.trans hext, hmade⟩

/-- A part of an object is read off it. -/
theorem makes_getAttribute {call : Caller} {name : String} {w : Value}
    (hcell : heap.cell? v = some cell) (hplain : cell.attributes = [])
    (h : cell.fixed? name = some w) :
    Makes heap (getAttribute call v name) fun _ found => found = w := by
  intro s a t hs hget
  have hstored : cell.stored? name = some w := by rw [Cell.stored?_of_plain hplain, h]
  rw [on_getAttribute_stored (Heap.stored?_of_cell? (hs _ _ hcell) hstored)] at hget
  cases hget
  exact ⟨.refl _, rfl⟩

end FunctionManifest
