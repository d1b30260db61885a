import FunctionManifest.Language.Signature
import FunctionManifest.Proofs.Assoc
import FunctionManifest.Proofs.Steps

/-!
# Arguments given by keyword

A parameter that cannot be given by position is what its keyword says. Keywords that are no parameters
are kept in their order, where they are accepted.
-/

namespace FunctionManifest

theorem get?_of_bindKeywords {signature : Signature} {name : Text} {keywords : Fields}
    {before after : Arguments} (hname : signature.isParameter name = true)
    (h : keywords.foldlM (fun acc entry => signature.bindKeyword acc entry.1 entry.2) before =
      .ok after) :
    Assoc.get? after.bound name =
      (Assoc.get? before.bound name).or (Assoc.get? keywords name) := by
  induction keywords generalizing before with
  | nil =>
    cases h
    exact (Option.or_none).symm
  | cons entry rest ih =>
    obtain ⟨keyword, v⟩ := entry
    rw [List.foldlM_cons] at h
    obtain ⟨mid, hmid, h⟩ := bind_eq_ok_iff.mp h
    rw [ih h]
    unfold Signature.bindKeyword at hmid
    split at hmid
    · split at hmid
      · cases hmid
      · cases hmid
        rw [Assoc.get?_append, Option.or_assoc, ← Assoc.get?_append, List.singleton_append]
    · -- A keyword that is no parameter is not the name that is looked for.
      rename_i hother
      have hne : keyword ≠ name := by
        rintro rfl
        exact hother hname
      split at hmid
      · cases hmid
        rw [Assoc.get?_cons, if_neg hne]
      · cases hmid

theorem bindKeywords_of_bind {signature : Signature} {positional : List Value} {keywords : Fields}
    {arguments : Arguments} (h : signature.bind positional keywords = .ok arguments) :
    keywords.foldlM (fun acc entry => signature.bindKeyword acc entry.1 entry.2)
      { bound := (signature.named.map Text.ofString).zip positional
        rest := positional.drop signature.named.length
        extra := [] } = .ok arguments := by
  -- The checks before and after the loop refuse arguments, and never change them.
  cases hfold : keywords.foldlM (fun acc entry => signature.bindKeyword acc entry.1 entry.2)
      { bound := (signature.named.map Text.ofString).zip positional
        rest := positional.drop signature.named.length
        extra := [] : Arguments } with
  | error failure =>
    simp only [Signature.bind, hfold, bind, Except.bind, throw, throwThe, MonadExceptOf.throw] at h
    grind
  | ok found =>
    simp only [Signature.bind, hfold, bind, Except.bind, pure, Except.pure, throw, throwThe,
      MonadExceptOf.throw] at h
    grind

/-- A parameter that has no position is what its keyword says. -/
theorem get?_of_bind {signature : Signature} {positional : List Value} {keywords : Fields}
    {arguments : Arguments} {name : String} (hname : name ∈ signature.keywords)
    (hnamed : Text.ofString name ∉ signature.named.map Text.ofString)
    (h : signature.bind positional keywords = .ok arguments) :
    arguments.get? name = Assoc.get? keywords (Text.ofString name) := by
  have hparameter : signature.isParameter (Text.ofString name) = true := by
    simp only [Signature.isParameter, List.any_append, Bool.or_eq_true, List.any_eq_true]
    exact .inl (.inr ⟨name, hname, by simp⟩)
  have hstart : Assoc.get? ((signature.named.map Text.ofString).zip positional)
      (Text.ofString name) = none := by
    simp only [Assoc.get?, Assoc.lookBy, Option.map_eq_none_iff, List.find?_eq_none]
    intro entry hentry hsame
    exact hnamed (eq_of_beq hsame ▸ (List.of_mem_zip hentry).1)
  rw [Arguments.get?, get?_of_bindKeywords hparameter (bindKeywords_of_bind h), hstart,
    Option.none_or]

/-! ## Further arguments -/

theorem extra_of_bindKeywords {signature : Signature} {keywords : Fields}
    {before after : Arguments}
    (h : keywords.foldlM (fun acc entry => signature.bindKeyword acc entry.1 entry.2) before =
      .ok after) :
    after.extra = Assoc.setAll before.extra
      (keywords.filter fun keyword => !signature.isParameter keyword.1) := by
  induction keywords generalizing before with
  | nil =>
    cases h
    rfl
  | cons entry rest ih =>
    rw [List.foldlM_cons] at h
    obtain ⟨mid, hmid, h⟩ := bind_eq_ok_iff.mp h
    rw [ih h]
    unfold Signature.bindKeyword at hmid
    split at hmid
    · rename_i hparameter
      split at hmid
      · cases hmid
      · cases hmid
        simp [hparameter]
    · rename_i hother
      split at hmid
      · cases hmid
        simp [hother, Assoc.setAll]
      · cases hmid

/-- The keywords that are no parameters, if no keyword is given twice. -/
theorem extra_of_bind {signature : Signature} {positional : List Value} {keywords : Fields}
    {arguments : Arguments} (hkeywords : (keywords.map Prod.fst).Nodup)
    (h : signature.bind positional keywords = .ok arguments) :
    arguments.extra = keywords.filter fun keyword => !signature.isParameter keyword.1 := by
  rw [extra_of_bindKeywords (bindKeywords_of_bind h)]
  exact Assoc.setAll_nil_of_nodup (hkeywords.sublist (List.filter_sublist.map Prod.fst))

end FunctionManifest
