import FunctionManifest.Proofs.Relocation.Calls
import FunctionManifest.Language.Evaluate

/-!
# Terms

A term evaluates alike in alike scopes.
-/

namespace FunctionManifest

open Eval

variable {ρ : Relocation}

theorem moved_moduleStart (name : Text) : moved ρ (moduleStart name) = moduleStart name := by
  simp [moduleStart]

theorem mirrors_newFloat (x : Binary64) : Mirrors ρ True (newFloat x) (newFloat x) := by
  cases x with
  | nan identity => exact mirrors_newUndefined
  | _ => exact mirrors_pure rfl

section

variable {scope scope' : Variables}

mutual

theorem mirrors_evaluate (hscope : ∀ name, scope' name = moved ρ (scope name)) :
    (term : Term) → Mirrors ρ True (term.evaluate scope) (term.evaluate scope')
  | .null | .bool _ | .int _ | .text _ => mirrors_pure rfl
  | .constant c => mirrors_pure (Heap.moved_constant c).symm
  | .float x => mirrors_newFloat x
  | .regex _ | .unknown _ | .callable _ _ => mirrors_allocate rfl rfl
  | .list items => by
    have hitems := mirrors_evaluateItems hscope items
    unfold Term.evaluate
    exact mirrors_bind hitems fun items => mirrors_intern (moved_valueList items).symm
  | .tuple items => by
    have hitems := mirrors_evaluateItems hscope items
    unfold Term.evaluate
    exact mirrors_bind hitems fun items => mirrors_intern (moved_valueTuple items).symm
  | .mapping entries => by
    have hentries := mirrors_evaluateEntries hscope [] entries
    unfold Term.evaluate
    exact mirrors_bind hentries fun entries => mirrors_intern (moved_valueMapping entries).symm
  | .record fields => by
    have hfields := mirrors_evaluateFields hscope fields
    unfold Term.evaluate
    exact mirrors_bind hfields fun fields =>
      mirrors_allocateGiven (congrArg Cell.record (Assoc.moved_ofList fields))
  | .module name file attributes => by
    have hattributes := mirrors_evaluateFields hscope attributes
    unfold Term.evaluate
    refine mirrors_bind hattributes fun attributes => mirrors_allocateGiven ?_
    have hstart : moduleStart name ++ (file.map fun file => field "__file__" (.text file)).getD [] =
        moved ρ (moduleStart name ++
          (file.map fun file => field "__file__" (.text file)).getD []) := by
      rw [moved_append, moved_moduleStart]
      cases file <;> rfl
    rw [moved_cell_module, ← Assoc.moved_setAll, ← hstart]
  | .variable name => mirrors_ofExcept (hscope name)
  | .attribute target name => by
    have htarget := mirrors_evaluate hscope target
    unfold Term.evaluate
    exact mirrors_bind htarget fun target => mirrors_getAttribute mirrors_asked target name
  | .method target name positional keywords => by
    have htarget := mirrors_evaluate hscope target
    have hpositional := mirrors_evaluateItems hscope positional
    have hkeywords := mirrors_evaluateFields hscope keywords
    unfold Term.evaluate
    refine mirrors_bind htarget fun target => mirrors_bind hpositional fun positional =>
      mirrors_bind hkeywords fun keywords => ?_
    rw [Assoc.moved_ofList]
    exact mirrors_callMethod target name positional _
  | .apply callee positional keywords => by
    have hpositional := mirrors_evaluateItems hscope positional
    have hkeywords := mirrors_evaluateFields hscope keywords
    unfold Term.evaluate
    refine mirrors_bind hpositional fun values => mirrors_bind hkeywords fun keywords => ?_
    rw [Assoc.moved_ofList]
    refine mirrors_map (mirrors_callBuiltin mirrors_asked callee values _) fun v => ?_
    split <;> rfl
  | .triggered trigger positional keywords function => by
    have hpositional := mirrors_evaluateItems hscope positional
    have hkeywords := mirrors_evaluateFields hscope keywords
    unfold Term.evaluate
    refine mirrors_bind hpositional fun positional => mirrors_bind hkeywords fun keywords => ?_
    rw [Assoc.moved_ofList]
    refine mirrors_bind (mirrors_callBuiltin mirrors_asked _ positional _) fun decorator => ?_
    exact mirrors_bind (mirrors_allocate rfl rfl) fun function => mirrors_call decorator [function] []

theorem mirrors_evaluateItems (hscope : ∀ name, scope' name = moved ρ (scope name)) :
    (items : List Term) → Mirrors ρ True (evaluateItems scope items) (evaluateItems scope' items)
  | [] => mirrors_pure rfl
  | term :: rest => by
    have hterm := mirrors_evaluate hscope term
    have hrest := mirrors_evaluateItems hscope rest
    unfold evaluateItems
    exact mirrors_bind hterm fun v => mirrors_map hrest fun rest => rfl

theorem mirrors_evaluateFields (hscope : ∀ name, scope' name = moved ρ (scope name)) :
    (fields : List (Text × Term)) →
      Mirrors ρ True (evaluateFields scope fields) (evaluateFields scope' fields)
  | [] => mirrors_pure rfl
  | (name, term) :: rest => by
    have hterm := mirrors_evaluate hscope term
    have hrest := mirrors_evaluateFields hscope rest
    unfold evaluateFields
    exact mirrors_bind hterm fun v => mirrors_map hrest fun rest => rfl

theorem mirrors_evaluateEntries (hscope : ∀ name, scope' name = moved ρ (scope name))
    (before : Entries) :
    (entries : List (Term × Term)) → Mirrors ρ True (evaluateEntries scope before entries)
      (evaluateEntries scope' (moved ρ before) entries)
  | [] => mirrors_pure rfl
  | (key, term) :: rest => by
    have hkey := mirrors_evaluate hscope key
    have hterm := mirrors_evaluate hscope term
    have hrest := fun before => mirrors_evaluateEntries hscope before rest
    unfold evaluateEntries
    refine mirrors_bind hkey fun key => mirrors_bind hterm fun v => ?_
    exact mirrors_bind (mirrors_reading fun _ _ _ => Heap.moved_putEntry before key v) hrest

end

end

end FunctionManifest
