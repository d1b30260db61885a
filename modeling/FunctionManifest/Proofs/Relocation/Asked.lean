import FunctionManifest.Proofs.Relocation.Describing

/-!
# Arguments

Arguments are bound to the names of a signature, by their number and by their keywords.
-/

namespace FunctionManifest

open Eval

variable {ρ : Relocation} {declaring : Prop}

/-! ## Arguments -/

@[simps] instance Arguments.relocatable : Relocatable Arguments where
  moved ρ arguments := ⟨moved ρ arguments.bound, moved ρ arguments.rest, moved ρ arguments.extra⟩

theorem moved_arguments (bound : Fields) (rest : List Value) (extra : Fields) :
    moved ρ (Arguments.mk bound rest extra) = ⟨moved ρ bound, moved ρ rest, moved ρ extra⟩ := rfl

namespace Arguments

@[simp] theorem moved_get? (arguments : Arguments) (name : String) :
    (moved ρ arguments).get? name = moved ρ (arguments.get? name) :=
  Assoc.moved_get? arguments.bound _

@[simp] theorem moved_get (arguments : Arguments) (name : String) :
    (moved ρ arguments).get name = moved ρ (arguments.get name) := by
  unfold get
  rw [moved_get?]
  cases arguments.get? name <;> rfl

theorem moved_getD (arguments : Arguments) (name : String) {v : Value} (h : moved ρ v = v) :
    ((moved ρ arguments).get? name).getD v = moved ρ ((arguments.get? name).getD v) := by
  rw [moved_get?]
  cases arguments.get? name with
  | none => exact h.symm
  | some found => rfl

end Arguments

namespace Signature

variable (signature : Signature)

theorem moved_bindKeyword (arguments : Arguments) (keyword : Text) (v : Value) :
    signature.bindKeyword (moved ρ arguments) keyword (moved ρ v) =
      moved ρ (signature.bindKeyword arguments keyword v) := by
  unfold bindKeyword
  rw [Arguments.relocatable_moved_bound, Assoc.moved_contains]
  split
  · split
    · rfl
    · simp [moved_arguments]
  · split
    · simp [moved_arguments]
    · rfl

theorem moved_missing (arguments : Arguments) (names : List String) :
    missing (moved ρ arguments) names = missing arguments names := by
  simp [missing]

theorem moved_keywordOnly (arguments : Arguments) :
    signature.keywordOnly (moved ρ arguments) = signature.keywordOnly arguments := by
  simp [keywordOnly]

theorem moved_zip (names : List Text) (items : List Value) :
    names.zip (moved ρ items) = moved ρ (names.zip items) := by
  induction names generalizing items with
  | nil => rfl
  | cons name rest ih => cases items <;> simp [ih]

theorem moved_bind (positional : List Value) (keywords : Fields) :
    signature.bind (moved ρ positional) (moved ρ keywords) =
      moved ρ (signature.bind positional keywords) := by
  have hfold (start : Arguments) :
      (moved ρ keywords).foldlM (fun acc entry => signature.bindKeyword acc entry.1 entry.2)
        (moved ρ start) =
        moved ρ (keywords.foldlM (fun acc entry => signature.bindKeyword acc entry.1 entry.2)
          start) :=
    moved_foldlM keywords start fun acc entry => signature.moved_bindKeyword acc entry.1 entry.2
  have hdrop : (moved ρ positional).drop signature.named.length =
      moved ρ (positional.drop signature.named.length) :=
    List.map_drop.symm
  have hstart := moved_arguments (ρ := ρ) ((signature.named.map Text.ofString).zip positional)
    (positional.drop signature.named.length) []
  rw [moved_nil] at hstart
  unfold bind
  simp -zeta only [length_moved, isEmpty_moved, moved_zip, hdrop, ← hstart]
  refine moved_ite rfl (moved_ite rfl (moved_ite rfl ?_))
  refine moved_bound (hfold _) fun arguments => ?_
  simp -zeta only [moved_missing, moved_keywordOnly]
  refine moved_ite rfl ?_
  cases missing arguments (signature.named.take signature.required) with
  | cons => rfl
  | nil => cases missing arguments signature.requiredKeywords <;> rfl

end Signature

end FunctionManifest
