import FunctionManifest.Proofs.Source.Suspending
import Mathlib.Logic.Relation

/-!
# The scan and the bodies of functions

What is written in the bodies of functions has no say in how a source is executed. Two trees that
differ in nothing else get the same answer from the scan, and a yes always comes with something that
suspends and stands in no function.
-/

namespace FunctionManifest

namespace Node

/-! ## Other bodies -/

/-- The body of one function in the tree is replaced. -/
inductive ReplacesBody : Node → Node → Prop
  | here {kind : NodeKind} (before body body' after : List Node)
      (hscope : kind.opensScope = true) (hbody : ∀ n ∈ body, kind.inBody n.kind = true)
      (hbody' : ∀ n ∈ body', kind.inBody n.kind = true) :
      ReplacesBody (.mk kind (before ++ body ++ after)) (.mk kind (before ++ body' ++ after))
  | inside {child child' : Node} (kind : NodeKind) (before after : List Node)
      (h : ReplacesBody child child') :
      ReplacesBody (.mk kind (before ++ child :: after)) (.mk kind (before ++ child' :: after))

/-- The trees differ in bodies of functions only, in any number of them and at any depth. -/
def DiffersInBodies : Node → Node → Prop := Relation.ReflTransGen ReplacesBody

/-! ## The scan -/

variable {tree other : Node}

theorem anyTopLevelAwait_append (front back : List Node) :
    anyTopLevelAwait (front ++ back) = (anyTopLevelAwait front || anyTopLevelAwait back) := by
  induction front with
  | nil => rfl
  | cons child rest ih => simp only [List.cons_append, anyTopLevelAwait, ih, Bool.or_assoc]

theorem ReplacesBody.kind_eq (h : tree.ReplacesBody other) : tree.kind = other.kind := by
  cases h <;> rfl

theorem ReplacesBody.hasTopLevelAwait_eq (h : tree.ReplacesBody other)
    (hroot : tree.kind.opensScope = false) : tree.hasTopLevelAwait = other.hasTopLevelAwait := by
  induction h with
  | here before body body' after hscope =>
    -- The scan stops in front of this function, so it has to be the root.
    rw [kind, hscope] at hroot
    cases hroot
  | @inside child child' kind before after h ih =>
    simp only [hasTopLevelAwait, anyTopLevelAwait_append, anyTopLevelAwait, ← h.kind_eq]
    cases hscope : child.kind.opensScope with
    | true => simp only [Bool.not_true, Bool.false_and]
    | false => rw [ih hscope]

theorem DiffersInBodies.hasTopLevelAwait_eq (h : tree.DiffersInBodies other)
    (hroot : tree.kind.opensScope = false) : tree.hasTopLevelAwait = other.hasTopLevelAwait := by
  induction h using Relation.ReflTransGen.head_induction_on with
  | refl => rfl
  | head hstep _ ih =>
    rw [hstep.hasTopLevelAwait_eq hroot]
    apply ih
    rw [← hstep.kind_eq, hroot]

/-- The scan says the same of trees that differ in bodies of functions only. It says yes if and only
if a chain of child links leads to something that suspends, and no function stands on the chain. -/
theorem hasTopLevelAwait_of_differsInBodies (hroot : tree.kind.opensScope = false)
    (h : tree.DiffersInBodies other) :
    tree.hasTopLevelAwait = other.hasTopLevelAwait ∧
      (tree.hasTopLevelAwait = true ↔
        ∃ chain, tree.SuspendsAt chain ∧ ∀ n ∈ tree :: chain, n.kind.opensScope = false) := by
  refine ⟨h.hasTopLevelAwait_eq hroot, ?_, ?_⟩
  · intro hawait
    obtain ⟨chain, hsuspends, hfree⟩ := exists_suspendsAt hawait
    exact ⟨chain, hsuspends, List.forall_mem_cons.mpr ⟨hroot, hfree⟩⟩
  · rintro ⟨chain, hsuspends, hfree⟩
    exact hasTopLevelAwait_of_suspendsAt hsuspends (List.forall_mem_cons.mp hfree).2

/-- A function with a lambda for a default. -/
def deferring (result : Node) (body : List Node) : Node :=
  .mk .function
    (.mk .arguments [Snippet.leaf "arg", .mk .lambda [.mk .arguments [], result]] :: body)

/-- Neither the body of the function nor that of its default matters, also where they suspend. -/
theorem hasTopLevelAwait_deferring :
    let tree : Node := .mk (.other "Module") [awaitingClass,
      deferring (Snippet.leaf "Call") [Snippet.leaf "Pass"]]
    let other : Node := .mk (.other "Module") [awaitingClass,
      deferring Snippet.awaiting [Snippet.expression Snippet.awaiting, Snippet.leaf "Pass"]]
    tree.kind.opensScope = false ∧ tree.DiffersInBodies other ∧
      tree.hasTopLevelAwait = other.hasTopLevelAwait ∧
      (tree.hasTopLevelAwait = true ↔
        ∃ chain, tree.SuspendsAt chain ∧ ∀ n ∈ tree :: chain, n.kind.opensScope = false) := by
  intro tree other
  have hdefault : (deferring (Snippet.leaf "Call") [Snippet.leaf "Pass"]).ReplacesBody
      (deferring Snippet.awaiting [Snippet.leaf "Pass"]) := by
    apply ReplacesBody.inside _ []
    apply ReplacesBody.inside _ [_]
    exact .here [_] [_] [_] [] rfl (by decide) (by decide)
  have hbody : (deferring Snippet.awaiting [Snippet.leaf "Pass"]).ReplacesBody
      (deferring Snippet.awaiting [Snippet.expression Snippet.awaiting, Snippet.leaf "Pass"]) :=
    .here [_] [_] [_, _] [] rfl (by decide) (by decide)
  have hdiffers : tree.DiffersInBodies other :=
    .tail (.single (.inside _ [_] [] hdefault)) (.inside _ [_] [] hbody)
  exact ⟨rfl, hdiffers, hasTopLevelAwait_of_differsInBodies rfl hdiffers⟩

end Node

end FunctionManifest
