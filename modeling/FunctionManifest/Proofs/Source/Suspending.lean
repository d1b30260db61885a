import FunctionManifest.Source.Statement
import Mathlib.Data.List.Chain

/-!
# What the scan for suspending finds

The scan follows every chain of child links from the root, as far as no function stands on it. What
a function computes before its body runs, such as the defaults of its arguments, is computed outside
the function. The scan does not look there.
-/

namespace FunctionManifest

/-! ## Bodies of functions -/

namespace NodeKind

def statementLabels : List String :=
  ["Return", "Delete", "Assign", "TypeAlias", "AugAssign", "AnnAssign", "For", "While", "If", "With",
    "Match", "Raise", "Try", "TryStar", "Assert", "Import", "ImportFrom", "Global", "Nonlocal", "Expr",
    "Pass", "Break", "Continue"]

def isStatement : NodeKind → Bool
  | .function | .asyncFunction | .classBody | .asyncFor | .asyncWith => true
  | .other label => statementLabels.contains label
  | _ => false

/-- The child is in the body of the function above it. A body is made of statements; that of a lambda
is an expression. All other children of a function make its head: arguments with their defaults,
decorators, annotations. -/
def inBody (parent child : NodeKind) : Bool :=
  match parent with
  | .function | .asyncFunction => child.isStatement
  | .lambda => child != .arguments
  | _ => false

theorem inBody_of_not_opensScope {parent : NodeKind} (h : parent.opensScope = false)
    (child : NodeKind) : parent.inBody child = false := by
  cases parent <;> simp_all [opensScope, inBody]

theorem suspends_of_opensScope {kind : NodeKind} (h : kind.opensScope = true) :
    kind.suspends = false := by
  cases kind <;> simp_all [opensScope, suspends]

end NodeKind

namespace Node

def children : Node → List Node
  | .mk _ children => children

/-! ## Chains -/

def IsChild (parent child : Node) : Prop := child ∈ parent.children

/-- Child links lead from the root along the chain, to a node that suspends. -/
def SuspendsAt (tree : Node) (chain : List Node) : Prop :=
  (tree :: chain).IsChain IsChild ∧ ∃ n ∈ chain.getLast?, n.kind.suspends = true

/-- No link leads into the body of a function. -/
def StaysOutside (tree : Node) (chain : List Node) : Prop :=
  (tree :: chain).IsChain fun parent child => parent.kind.inBody child.kind = false

/-- Some link leads into the head of a function. -/
def EntersHead (chain : List Node) : Prop :=
  ∃ before f child after, chain = before ++ f :: child :: after ∧ f.kind.opensScope = true ∧
    f.kind.inBody child.kind = false

/-! ## The scan -/

variable {tree : Node} {chain children : List Node}

/-- What holds of a node if it holds of its children holds of every node. -/
theorem forall_of_children {P : Node → Prop}
    (h : ∀ kind children, (∀ child ∈ children, P child) → P (.mk kind children)) : ∀ n, P n
  | .mk kind children => h kind children fun child _ => forall_of_children h child

theorem anyTopLevelAwait_iff :
    anyTopLevelAwait children = true ↔ ∃ child ∈ children, child.kind.opensScope = false ∧
      (child.kind.suspends = true ∨ child.hasTopLevelAwait = true) := by
  induction children with
  | nil => simp [anyTopLevelAwait]
  | cons child rest ih => simp [anyTopLevelAwait, ih]

theorem hasTopLevelAwait_iff :
    tree.hasTopLevelAwait = true ↔ ∃ child ∈ tree.children, child.kind.opensScope = false ∧
      (child.kind.suspends = true ∨ child.hasTopLevelAwait = true) := by
  cases tree with
  | mk kind children => exact anyTopLevelAwait_iff

theorem hasTopLevelAwait_of_suspendsAt (h : tree.SuspendsAt chain)
    (hfree : ∀ n ∈ chain, n.kind.opensScope = false) : tree.hasTopLevelAwait = true := by
  induction chain generalizing tree with
  | nil =>
    obtain ⟨-, n, hn, -⟩ := h
    cases hn
  | cons child rest ih =>
    obtain ⟨hlinks, n, hn, hsuspends⟩ := h
    obtain ⟨hchild, hlinks⟩ := List.isChain_cons_cons.mp hlinks
    obtain ⟨hfirst, hfree⟩ := List.forall_mem_cons.mp hfree
    apply hasTopLevelAwait_iff.mpr
    refine ⟨child, hchild, hfirst, ?_⟩
    cases rest with
    | nil =>
      obtain rfl : child = n := by simpa using hn
      exact .inl hsuspends
    | cons next rest =>
      right
      apply ih _ hfree
      exact ⟨hlinks, n, by simpa using hn, hsuspends⟩

theorem exists_suspendsAt (h : tree.hasTopLevelAwait = true) :
    ∃ chain, tree.SuspendsAt chain ∧ ∀ n ∈ chain, n.kind.opensScope = false := by
  revert h
  apply forall_of_children _ tree
  intro kind children ih h
  obtain ⟨child, hchild, hfirst, hsuspends | hbelow⟩ := hasTopLevelAwait_iff.mp h
  · refine ⟨[child], ⟨?_, child, rfl, hsuspends⟩, by simpa using hfirst⟩
    exact List.isChain_pair.mpr hchild
  · obtain ⟨chain, ⟨hlinks, n, hn, hsuspends⟩, hfree⟩ := ih child hchild hbelow
    refine ⟨child :: chain, ⟨?_, n, ?_, hsuspends⟩, List.forall_mem_cons.mpr ⟨hfirst, hfree⟩⟩
    · exact List.isChain_cons_cons.mpr ⟨hchild, hlinks⟩
    · rw [List.getLast?_cons, hn]
      rfl

/-! ## Heads -/

theorem staysOutside_of_free (hroot : tree.kind.opensScope = false)
    (hfree : ∀ n ∈ chain, n.kind.opensScope = false) : tree.StaysOutside chain := by
  induction chain generalizing tree with
  | nil => exact List.isChain_singleton tree
  | cons child rest ih =>
    obtain ⟨hfirst, hfree⟩ := List.forall_mem_cons.mp hfree
    apply List.isChain_cons_cons.mpr
    exact ⟨NodeKind.inBody_of_not_opensScope hroot child.kind, ih hfirst hfree⟩

/-- A function on the way to what suspends outside its body is passed through its head. -/
theorem entersHead_of_mem {f : Node} (h : tree.SuspendsAt chain) (houtside : tree.StaysOutside chain)
    (hf : f ∈ chain) (hscope : f.kind.opensScope = true) : EntersHead chain := by
  obtain ⟨before, after, rfl⟩ := List.append_of_mem hf
  cases after with
  | nil =>
    -- The last node suspends, and a function does not.
    obtain ⟨-, n, hn, hsuspends⟩ := h
    obtain rfl : f = n := by simpa using hn
    rw [NodeKind.suspends_of_opensScope hscope] at hsuspends
    cases hsuspends
  | cons child after =>
    refine ⟨before, f, child, after, rfl, hscope, ?_⟩
    unfold StaysOutside at houtside
    rw [← List.cons_append] at houtside
    have hrest := (List.isChain_append.mp houtside).2.1
    exact (List.isChain_cons_cons.mp hrest).1

/-- The scan finds what suspends outside all bodies of functions, unless it stands in the head of a
function. -/
theorem hasTopLevelAwait_iff_outside_heads (hroot : tree.kind.opensScope = false) :
    tree.hasTopLevelAwait = true ↔
      ∃ chain, tree.SuspendsAt chain ∧ tree.StaysOutside chain ∧ ¬EntersHead chain := by
  constructor
  · intro h
    obtain ⟨chain, hsuspends, hfree⟩ := exists_suspendsAt h
    refine ⟨chain, hsuspends, staysOutside_of_free hroot hfree, ?_⟩
    rintro ⟨before, f, child, after, rfl, hscope, -⟩
    rw [hfree f (by simp)] at hscope
    cases hscope
  · rintro ⟨chain, hsuspends, houtside, hhead⟩
    apply hasTopLevelAwait_of_suspendsAt hsuspends
    intro n hn
    by_contra hscope
    exact hhead (entersHead_of_mem hsuspends houtside hn (by simpa using hscope))

def awaitingClass : Node := .mk .classBody [Snippet.expression Snippet.awaiting]

theorem exists_chain_awaitingClass :
    let tree : Node := .mk (.other "Module") [awaitingClass]
    tree.kind.opensScope = false ∧
      ∃ chain, tree.SuspendsAt chain ∧ tree.StaysOutside chain ∧ ¬EntersHead chain :=
  ⟨rfl, (hasTopLevelAwait_iff_outside_heads rfl).mp rfl⟩

def awaitingArguments : Node := .mk .arguments [Snippet.leaf "arg", Snippet.awaiting]

def awaitingDefault : Node := .mk .function [awaitingArguments, Snippet.leaf "Pass"]

/-- A source whose defaults suspend is taken for one that does not suspend. As such it cannot be
compiled. -/
theorem awaitingDefault_missed :
    let tree : Node := .mk (.other "Module") [awaitingDefault]
    (∃ chain, tree.SuspendsAt chain ∧ tree.StaysOutside chain) ∧ tree.hasTopLevelAwait = false ∧
      checkCompiles tree .async = .ok () ∧
      checkCompiles tree (moduleFormat tree) = .error .badSyntax := by
  intro tree
  refine ⟨⟨[awaitingDefault, awaitingArguments, Snippet.awaiting], ⟨?_, Snippet.awaiting, rfl, rfl⟩,
    ?_⟩, rfl, rfl, rfl⟩
  · simp [IsChild, children, awaitingDefault, awaitingArguments, tree]
  · simp [StaysOutside, kind, NodeKind.inBody, NodeKind.isStatement, awaitingDefault,
      awaitingArguments, tree]

end Node

end FunctionManifest
