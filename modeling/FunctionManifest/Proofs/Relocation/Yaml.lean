import FunctionManifest.Proofs.Relocation.Json

/-!
# Manifests in blocks

A part that occurs again is named by an anchor. Anchors are numbered in the order of the parts,
which is the same for the new addresses.
-/

namespace FunctionManifest

variable {ρ : Relocation} {heap heap' : Heap}

namespace Yaml

instance : Plain Scalar where

/-! ## Nodes -/

mutual

def Node.relocated (ρ : Relocation) : Node → Node
  | .scalar s => .scalar s
  | .list address items => .list (address.map ρ.address) (relocatedNodes ρ items)
  | .mapping address entries => .mapping (address.map ρ.address) (relocatedNodeEntries ρ entries)
  | .alias address => .alias (ρ.address address)

def relocatedNodes (ρ : Relocation) : List Node → List Node
  | [] => []
  | node :: rest => node.relocated ρ :: relocatedNodes ρ rest

def relocatedNodeEntries (ρ : Relocation) : List (Node × Node) → List (Node × Node)
  | [] => []
  | (key, node) :: rest => (key.relocated ρ, node.relocated ρ) :: relocatedNodeEntries ρ rest

end

instance : Relocatable Node := ⟨Node.relocated⟩

theorem relocatedNodes_eq (nodes : List Node) : relocatedNodes ρ nodes = moved ρ nodes := by
  induction nodes with
  | nil => rfl
  | cons node rest ih => rw [relocatedNodes, ih]; rfl

theorem relocatedNodeEntries_eq (entries : List (Node × Node)) :
    relocatedNodeEntries ρ entries = moved ρ entries := by
  induction entries with
  | nil => rfl
  | cons entry rest ih => rw [relocatedNodeEntries, ih]; rfl

@[simp] theorem moved_node_scalar (s : Scalar) : moved ρ (Node.scalar s) = .scalar s := rfl
@[simp] theorem moved_node_alias (a : Nat) : moved ρ (Node.alias a) = .alias (ρ.address a) := rfl
@[simp] theorem moved_node_list (address : Option Nat) (items : List Node) :
    moved ρ (Node.list address items) = .list (address.map ρ.address) (moved ρ items) :=
  congrArg (Node.list _) (relocatedNodes_eq items)
@[simp] theorem moved_node_mapping (address : Option Nat) (entries : List (Node × Node)) :
    moved ρ (Node.mapping address entries) = .mapping (address.map ρ.address) (moved ρ entries) :=
  congrArg (Node.mapping _) (relocatedNodeEntries_eq entries)

namespace Node

/-- The second making gives what the first one gives, at the new addresses. -/
def Mirrors (ρ : Relocation) {α : Type} [Relocatable α] (making making' : Making α) : Prop :=
  ∀ met, making'.run (met.map ρ.address) =
    (making.run met).map fun result => (moved ρ result.1, result.2.map ρ.address)

section

variable {α β : Type} [Relocatable α] [Relocatable β]

theorem mirrors_bind {making making' : Making α} {f f' : α → Making β}
    (h : Mirrors ρ making making')
    (hf : ∀ a, Mirrors ρ (f a) (f' (moved ρ a))) : Mirrors ρ (making >>= f) (making' >>= f') := by
  intro met
  rw [StateT.run_bind, StateT.run_bind, h met]
  cases making.run met with
  | error => rfl
  | ok result => exact hf result.1 result.2

theorem mirrors_pure {a a' : α} (h : a' = moved ρ a) : Mirrors ρ (pure a) (pure a') := by
  subst h
  exact fun met => rfl

theorem mirrors_throw (failure : Failure) :
    Mirrors ρ (throw failure : Making α) (throw failure) := fun _ => rfl

theorem mirrors_mapM {γ : Type} [Relocatable γ] {f f' : γ → Making α} (items : List γ)
    (h : ∀ c, Mirrors ρ (f c) (f' (moved ρ c))) :
    Mirrors ρ (items.mapM f) ((moved ρ items).mapM f') := by
  induction items with
  | nil => exact mirrors_pure rfl
  | cons c rest ih =>
    rw [moved_cons, List.mapM_cons, List.mapM_cons]
    exact mirrors_bind (h c) fun a => mirrors_bind ih fun rest => mirrors_pure rfl

theorem mirrors_get_bind {f f' : List Nat → Making β}
    (h : ∀ met, Mirrors ρ (f met) (f' (met.map ρ.address))) :
    Mirrors ρ (get >>= f) (get >>= f') := fun met => h met met

theorem mirrors_meet (address : Option Nat) :
    Mirrors ρ (modify (address.toList ++ ·) : Making Unit)
      (modify ((address.map ρ.address).toList ++ ·)) := by
  intro met
  refine congrArg (fun all => Except.ok ((), all)) ?_
  cases address <;> simp

end

theorem filter_met (address : Option Nat) (met : List Nat) :
    (address.map ρ.address).filter (met.map ρ.address).contains =
      (address.filter met.contains).map ρ.address := by
  cases address with
  | none => rfl
  | some a =>
    have h : (met.map ρ.address).contains (ρ.address a) = met.contains a := by
      rw [Bool.eq_iff_iff]
      simp [ρ.address_injective.eq_iff]
    simp only [Option.map_some, Option.filter_some, h]
    split <;> rfl

theorem moved_ofValue? (v : Value) : Scalar.ofValue? (moved ρ v) = Scalar.ofValue? v := by
  cases v with
  | float x => cases x <;> rfl
  | _ => simp [Scalar.ofValue?]

theorem moved_address? (v : Value) : address? (moved ρ v) = (address? v).map ρ.address := by
  cases v with
  | ref a =>
    have h := Value.moved_beq_moved (ρ := ρ) Heap.emptyTuple (.ref a)
    rw [Heap.moved_emptyTuple, moved_ref] at h
    simp only [moved_ref, address?, h]
    split <;> rfl
  | _ => simp [address?]

theorem mirrors_scalar (content : Value) : Mirrors ρ
    (do
      match ← (Scalar.ofValue? content : Making (Option Scalar)) with
      | some s => return Node.scalar s
      | none => throw .notYaml)
    (do
      match ← (Scalar.ofValue? (moved ρ content) : Making (Option Scalar)) with
      | some s => return Node.scalar s
      | none => throw .notYaml) := by
  rw [moved_ofValue?]
  cases Scalar.ofValue? content with
  | error => exact fun met => rfl
  | ok found => cases found <;> exact fun met => rfl

theorem mirrors_ofValueFrom [Heap.Moved ρ heap heap'] (fuel : Nat) (v : Value) :
    Mirrors ρ (ofValueFrom heap fuel v) (ofValueFrom heap' fuel (moved ρ v)) := by
  induction fuel generalizing v with
  | zero => exact mirrors_throw _
  | succ fuel ih =>
    unfold ofValueFrom
    refine mirrors_get_bind fun met => ?_
    rw [moved_address?, filter_met]
    cases (address? v).filter met.contains with
    | some a => exact mirrors_pure rfl
    | none =>
      have hlist : ∀ items : List Value, Mirrors ρ
          (do
            modify ((address? v).toList ++ ·)
            return Node.list (address? v) (← items.mapM (ofValueFrom heap fuel)))
          (do
            modify (((address? v).map ρ.address).toList ++ ·)
            return Node.list ((address? v).map ρ.address)
              (← (moved ρ items).mapM (ofValueFrom heap' fuel))) :=
        fun items => mirrors_bind (mirrors_meet _) fun _ =>
          mirrors_bind (mirrors_mapM items ih) fun nodes => mirrors_pure (moved_node_list _ _).symm
      rw [Heap.moved_content]
      cases heap.content v with
      | list items =>
        rw [moved_valueList]
        exact hlist items
      | tuple items =>
        rw [moved_valueTuple]
        exact hlist items
      | mapping entries =>
        rw [moved_valueMapping]
        refine mirrors_bind (mirrors_meet _) fun _ =>
          mirrors_bind (mirrors_mapM entries fun entry => ?_) fun nodes =>
          mirrors_pure (moved_node_mapping _ _).symm
        exact mirrors_bind (ih entry.1) fun key => mirrors_bind (ih entry.2) fun node =>
          mirrors_pure rfl
      | _ => exact mirrors_scalar _

theorem moved_ofValue [Heap.Moved ρ heap heap'] (v : Value) :
    ofValue heap' (moved ρ v) = moved ρ (ofValue heap v) := by
  have hmirrors : Mirrors ρ (ofValueFrom heap Heap.depth v)
      (ofValueFrom heap' Heap.depth (moved ρ v)) := mirrors_ofValueFrom Heap.depth v
  have h := hmirrors []
  change (·.1) <$> (ofValueFrom heap' Heap.depth (moved ρ v)).run [] =
      moved ρ ((·.1) <$> (ofValueFrom heap Heap.depth v).run [])
  rw [List.map_nil] at h
  rw [h]
  cases (ofValueFrom heap Heap.depth v).run [] <;> rfl

/-! ## Anchors -/

mutual

theorem moved_aliases : (node : Node) → (moved ρ node).aliases = node.aliases.map ρ.address
  | .scalar s => rfl
  | .alias a => rfl
  | .list address items => by
    rw [moved_node_list]
    simp only [aliases, moved_aliasesOfItems items]
  | .mapping address entries => by
    rw [moved_node_mapping]
    simp only [aliases, moved_aliasesOfEntries entries]

theorem moved_aliasesOfItems :
    (nodes : List Node) → aliasesOfItems (moved ρ nodes) = (aliasesOfItems nodes).map ρ.address
  | [] => rfl
  | node :: rest => by
    simp only [moved_cons, aliasesOfItems, moved_aliases node, moved_aliasesOfItems rest,
      List.map_append]

theorem moved_aliasesOfEntries :
    (entries : List (Node × Node)) → aliasesOfEntries (moved ρ entries) =
      (aliasesOfEntries entries).map ρ.address
  | [] => rfl
  | (key, node) :: rest => by
    simp only [moved_cons, moved_pair, aliasesOfEntries, moved_aliases key, moved_aliases node,
      moved_aliasesOfEntries rest, List.map_append]

end

end Node

theorem eraseDups_map {f : Nat → Nat} (hf : Function.Injective f) (items : List Nat) :
    (items.map f).eraseDups = items.eraseDups.map f := by
  induction h : items.length using Nat.strong_induction_on generalizing items with
  | _ n ih =>
    cases items with
    | nil => rfl
    | cons a rest =>
      have hfilter : (rest.map f).filter (fun b => !b == f a) =
          (rest.filter fun b => !b == a).map f := by
        rw [List.filter_map]
        congr 2
        funext b
        simp [hf.eq_iff]
      rw [List.map_cons, List.eraseDups_cons, List.eraseDups_cons, List.map_cons, hfilter]
      refine congrArg _ (ih _ ?_ _ rfl)
      have hle := List.length_filter_le (fun b => !b == a) rest
      simp only [List.length_cons] at h
      omega

theorem Anchors.moved_name? (node : Node) (a : Nat) :
    (Anchors.ofNode (moved ρ node)).name? (ρ.address a) = (Anchors.ofNode node).name? a := by
  unfold name? ofNode
  rw [Node.moved_aliases, eraseDups_map ρ.address_injective, List.findIdx?_map]
  congr 3
  funext b
  simp [ρ.address_injective.eq_iff]

/-! ## Writing -/

section

variable {anchors anchors' : Anchors}

theorem moved_writeAnchor (h : ∀ a, anchors'.name? (ρ.address a) = anchors.name? a)
    (address : Option Nat) (sheet : Sheet) :
    writeAnchor anchors' (address.map ρ.address) sheet = writeAnchor anchors address sheet := by
  cases address with
  | none => rfl
  | some a => simp only [writeAnchor, Option.map_some, Option.bind_some, h]

theorem moved_isSimpleKey (node : Node) : (moved ρ node).isSimpleKey = node.isSimpleKey := by
  cases node with
  | list address items => cases items <;> rfl
  | mapping address entries => cases entries with
    | nil => rfl
    | cons entry rest => simp [Node.isSimpleKey]
  | _ => rfl

mutual

theorem moved_writeNode (h : ∀ a, anchors'.name? (ρ.address a) = anchors.name? a) (place : Place)
    (outer : Option Nat) (simpleKey : Bool) (sheet : Sheet) : (node : Node) →
    writeNode anchors' place outer simpleKey sheet (moved ρ node) =
      writeNode anchors place outer simpleKey sheet node
  | .scalar s => by simp [writeNode]
  | .alias a => by simp [writeNode, writeAlias, h]
  | .list address items => by
    rw [moved_node_list]
    simp only [writeNode, isEmpty_moved, moved_writeAnchor h, moved_writeItems h _ _ items]
  | .mapping address entries => by
    rw [moved_node_mapping]
    simp only [writeNode, isEmpty_moved, moved_writeAnchor h, moved_writeEntries h _ _ entries]

theorem moved_writeItems (h : ∀ a, anchors'.name? (ρ.address a) = anchors.name? a) (indent : Nat)
    (sheet : Sheet) : (nodes : List Node) →
    writeItems anchors' indent sheet (moved ρ nodes) = writeItems anchors indent sheet nodes
  | [] => by simp [writeItems]
  | node :: rest => by
    simp only [moved_cons, writeItems]
    rw [moved_writeNode h _ _ _ _ node, moved_writeItems h _ _ rest]

theorem moved_writeEntries (h : ∀ a, anchors'.name? (ρ.address a) = anchors.name? a) (indent : Nat)
    (sheet : Sheet) : (entries : List (Node × Node)) →
    writeEntries anchors' indent sheet (moved ρ entries) = writeEntries anchors indent sheet entries
  | [] => by simp [writeEntries]
  | (key, node) :: rest => by
    simp only [moved_cons, moved_pair, writeEntries, moved_isSimpleKey]
    rw [moved_writeNode h _ _ _ _ key, moved_writeNode h _ _ _ _ key,
      moved_writeNode h _ _ _ _ node,
      moved_writeEntries h _ _ rest]

end

end

theorem moved_writeDocument (node : Node) : writeDocument (moved ρ node) = writeDocument node := by
  have hopen : (moved ρ node).isOpen = node.isOpen := by cases node <;> rfl
  unfold writeDocument
  rw [moved_writeNode (Anchors.moved_name? node), hopen]

theorem moved_write [Heap.Moved ρ heap heap'] (v : Value) :
    write heap' (moved ρ v) = write heap v := by
  unfold write
  rw [Node.moved_ofValue]
  cases Node.ofValue heap v with
  | error => rfl
  | ok node => exact congrArg Except.ok (moved_writeDocument node)

end Yaml

theorem OutputFormat.moved_ofValue (v : Value) : ofValue (moved ρ v) = ofValue v := by
  cases v <;> simp [ofValue]

theorem moved_renderManifest [Heap.Moved ρ heap heap'] (wire : Value) (format : OutputFormat) :
    renderManifest heap' (moved ρ wire) format = renderManifest heap wire format := by
  cases format with
  | json => exact Json.moved_write wire
  | yaml => exact Yaml.moved_write wire

end FunctionManifest
