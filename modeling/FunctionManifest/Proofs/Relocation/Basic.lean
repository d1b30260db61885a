import FunctionManifest.Language.Access
import FunctionManifest.Trigger.Basic
import Mathlib.Logic.Function.Basic
import Mathlib.Tactic.Simps.Basic

/-!
# Relocations

No code sees where an object is kept. What it does in a session is what it does in any other session
that has the same objects at other addresses, whatever else is kept there.
-/

namespace FunctionManifest

/-- New addresses for objects, and new identities for numbers that are none. What every source
shares stays where it is, but for the registry outside every scope. -/
structure Relocation where
  address : Nat → Nat
  undefined : Nat → Nat
  address_injective : Function.Injective address
  undefined_injective : Function.Injective undefined
  shared : ∀ a ≤ Heap.firstNative, a ≠ 1 → address a = a
  undefined_zero : undefined 0 = 0
  /-- What is kept where nothing moves to. -/
  rest : Nat → Option Cell
  /-- Where the submodules of packages are looked for that are kept there. -/
  restPath : Nat → Option PackagePath

/-- What has addresses in it. -/
class Relocatable (α : Type) where
  moved : Relocation → α → α

export Relocatable (moved)

/-- What has no addresses in it. -/
class Plain (α : Type) : Prop

instance {α : Type} [Plain α] : Relocatable α := ⟨fun _ a => a⟩

variable {ρ : Relocation} {α β : Type}

@[simp] theorem moved_plain [Plain α] (a : α) : moved ρ a = a := rfl

instance : Plain Unit where
instance : Plain Bool where
instance : Plain Int where
instance : Plain String where
instance : Plain Text where
instance : Plain Failure where

section

variable [Relocatable α] [Relocatable β]

instance : Relocatable (List α) := ⟨fun ρ items => items.map (moved ρ)⟩

instance : Relocatable (Option α) := ⟨fun ρ a => a.map (moved ρ)⟩

instance : Relocatable (α × β) := ⟨fun ρ pair => (moved ρ pair.1, moved ρ pair.2)⟩

instance {ε : Type} : Relocatable (Except ε α) := ⟨fun ρ result => result.map (moved ρ)⟩

theorem moved_list (items : List α) : moved ρ items = items.map (moved ρ) := rfl

@[simp] theorem moved_nil : moved ρ ([] : List α) = [] := rfl

@[simp] theorem moved_cons (a : α) (rest : List α) :
    moved ρ (a :: rest) = moved ρ a :: moved ρ rest := rfl

@[simp] theorem moved_append (items more : List α) :
    moved ρ (items ++ more) = moved ρ items ++ moved ρ more :=
  List.map_append

@[simp] theorem length_moved (items : List α) :
    (moved ρ items).length = items.length := List.length_map _

theorem isEmpty_moved (items : List α) : (moved ρ items).isEmpty = items.isEmpty := by
  cases items <;> rfl

@[simp] theorem moved_none : moved ρ (none : Option α) = none := rfl

@[simp] theorem moved_some (a : α) : moved ρ (some a) = some (moved ρ a) := rfl

@[simp] theorem moved_pair (a : α) (b : β) : moved ρ (a, b) = (moved ρ a, moved ρ b) := rfl

@[simp] theorem moved_ok {ε : Type} (a : α) :
    moved ρ (.ok a : Except ε α) = .ok (moved ρ a) := rfl

@[simp] theorem moved_error {ε : Type} (e : ε) :
    moved ρ (.error e : Except ε α) = .error e := rfl

end

/-! ## Values -/

def Binary64.relocated (ρ : Relocation) : Binary64 → Binary64
  | .nan identity => .nan (ρ.undefined identity)
  | x => x

mutual

def Value.relocated (ρ : Relocation) : Value → Value
  | .float x => .float (x.relocated ρ)
  | .list items => .list (Value.relocatedItems ρ items)
  | .tuple items => .tuple (Value.relocatedItems ρ items)
  | .mapping entries => .mapping (Value.relocatedEntries ρ entries)
  | .ref address => .ref (ρ.address address)
  | v => v

def Value.relocatedItems (ρ : Relocation) : List Value → List Value
  | [] => []
  | v :: rest => v.relocated ρ :: Value.relocatedItems ρ rest

def Value.relocatedEntries (ρ : Relocation) : List (Value × Value) → List (Value × Value)
  | [] => []
  | (k, v) :: rest => (k.relocated ρ, v.relocated ρ) :: Value.relocatedEntries ρ rest

end

instance : Relocatable Binary64 := ⟨Binary64.relocated⟩
instance : Relocatable Value := ⟨Value.relocated⟩

theorem Value.relocatedItems_eq (items : List Value) :
    Value.relocatedItems ρ items = moved ρ items := by
  induction items with
  | nil => rfl
  | cons v rest ih => rw [Value.relocatedItems, ih]; rfl

theorem Value.relocatedEntries_eq (entries : Entries) :
    Value.relocatedEntries ρ entries = moved ρ entries := by
  induction entries with
  | nil => rfl
  | cons entry rest ih => rw [Value.relocatedEntries, ih]; rfl

@[simp] theorem moved_null : moved ρ Value.null = .null := rfl
@[simp] theorem moved_bool (b : Bool) : moved ρ (Value.bool b) = .bool b := rfl
@[simp] theorem moved_int (n : Int) : moved ρ (Value.int n) = .int n := rfl
@[simp] theorem moved_float (x : Binary64) :
    moved ρ (Value.float x) = .float (moved ρ x) := rfl
@[simp] theorem moved_text (t : Text) : moved ρ (Value.text t) = .text t := rfl
@[simp] theorem moved_valueList (items : List Value) :
    moved ρ (Value.list items) = .list (moved ρ items) :=
  congrArg Value.list (Value.relocatedItems_eq items)
@[simp] theorem moved_valueTuple (items : List Value) :
    moved ρ (Value.tuple items) = .tuple (moved ρ items) :=
  congrArg Value.tuple (Value.relocatedItems_eq items)
@[simp] theorem moved_valueMapping (entries : Entries) :
    moved ρ (Value.mapping entries) = .mapping (moved ρ entries) :=
  congrArg Value.mapping (Value.relocatedEntries_eq entries)
@[simp] theorem moved_ref (a : Nat) : moved ρ (Value.ref a) = .ref (ρ.address a) := rfl

/-! ## Cells -/

instance : Relocatable Formula where
  moved ρ
    | .base => .base
    | .param p => .param (moved ρ p)
    | .compare op left right => .compare op (moved ρ left) (moved ρ right)
    | .ifElse test ifTrue ifFalse => .ifElse (moved ρ test) (moved ρ ifTrue) (moved ρ ifFalse)

@[simps] instance Param.relocatable : Relocatable Param where
  moved ρ p :=
    { kind := p.kind
      name := moved ρ p.name
      default := moved ρ p.default
      label := moved ρ p.label
      description := moved ρ p.description
      input := moved ρ p.input
      configKey := moved ρ p.configKey }

@[simps] instance Secret.relocatable : Relocatable Secret where
  moved ρ s := ⟨s.json, moved ρ s.name⟩

@[simps] instance RequiredApi.relocatable : Relocatable RequiredApi where
  moved ρ required := ⟨moved ρ required.api, moved ρ required.reason⟩

@[simps] instance Endpoint.relocatable : Relocatable Endpoint where
  moved ρ e :=
    { kind := e.kind
      trigger := moved ρ e.trigger
      entryPoint := moved ρ e.entryPoint
      platform := moved ρ e.platform
      labels := moved ρ e.labels
      options := moved ρ e.options }

@[simps] instance CloudFunction.relocatable : Relocatable CloudFunction where
  moved ρ f := ⟨moved ρ f.endpoint, moved ρ f.invoke, moved ρ f.requiredApis⟩

@[simps] instance Stack.relocatable : Relocatable Stack where
  moved ρ s :=
    { endpoints := moved ρ s.endpoints
      requiredApis := moved ρ s.requiredApis
      specVersion := moved ρ s.specVersion
      params := moved ρ s.params }

@[simps] instance Config.relocatable : Relocatable Config where
  moved ρ c :=
    { specVersion := moved ρ c.specVersion
      includeParams := moved ρ c.includeParams
      entryFile := moved ρ c.entryFile
      platform := moved ρ c.platform }

@[simps] instance Choice.relocatable : Relocatable Choice where
  moved ρ c := ⟨moved ρ c.value, moved ρ c.label⟩

instance : Relocatable Prompt where
  moved ρ
    | .text sample pattern complaint => .text (moved ρ sample) (moved ρ pattern) (moved ρ complaint)
    | .select many choices => .select many (moved ρ choices)
    | .resource type => .resource (moved ρ type)

@[simps] instance Registry.relocatable [Relocatable α] : Relocatable (Registry α) where
  moved ρ r := ⟨moved ρ r.entries⟩

instance : Relocatable Payload where
  moved ρ
    | .request invoker => .request (moved ρ invoker)
    | .call => .call
    | .schedule times timezone retries =>
      .schedule (moved ρ times) (moved ρ timezone) (moved ρ retries)
    | .event type exact patterns channel region retry =>
      .event (moved ρ type) (moved ρ exact) (moved ρ patterns) (moved ρ channel)
        (moved ρ region) (moved ρ retry)

@[simps] instance Trigger.relocatable : Relocatable Trigger where
  moved ρ t :=
    { maker := t.maker
      payload := moved ρ t.payload
      labels := moved ρ t.labels
      options := moved ρ t.options
      requiredApis := moved ρ t.requiredApis }

instance : Relocatable Cell where
  moved ρ
    | .list items => .list (moved ρ items)
    | .tuple items => .tuple (moved ρ items)
    | .mapping entries => .mapping (moved ρ entries)
    | .record fields => .record (moved ρ fields)
    | .module attributes => .module (moved ρ attributes)
    | .callable label named attributes => .callable label named (moved ρ attributes)
    | .unknown label attributes => .unknown label (moved ρ attributes)
    | .param p => .param (moved ρ p)
    | .secret s => .secret (moved ρ s)
    | .formula f => .formula (moved ρ f)
    | .reset => .reset
    | .pattern p segments => .pattern p (moved ρ segments)
    | .regex source => .regex source
    | .segment sort content => .segment sort (moved ρ content)
    | .api required => .api (moved ρ required)
    | .endpoint e => .endpoint (moved ρ e)
    | .function f => .function (moved ρ f)
    | .stack s => .stack (moved ρ s)
    | .config c => .config (moved ρ c)
    | .choice c => .choice (moved ρ c)
    | .prompt p => .prompt (moved ρ p)
    | .failure kind arguments attributes => .failure kind (moved ρ arguments) (moved ρ attributes)
    | .registry r => .registry (moved ρ r)
    | .trigger t attributes => .trigger (moved ρ t) (moved ρ attributes)
    | .builtin b => .builtin b
    | .native label => .native label
    | .method m self => .method m (moved ρ self)

section

variable (items : List Value) (entries : Entries) (fields : Fields) (v w u : Value)

@[simp] theorem moved_cell_list : moved ρ (Cell.list items) = .list (moved ρ items) := rfl
@[simp] theorem moved_cell_tuple :
    moved ρ (Cell.tuple items) = .tuple (moved ρ items) := rfl
@[simp] theorem moved_cell_mapping :
    moved ρ (Cell.mapping entries) = .mapping (moved ρ entries) := rfl
@[simp] theorem moved_cell_record :
    moved ρ (Cell.record fields) = .record (moved ρ fields) := rfl
@[simp] theorem moved_cell_module :
    moved ρ (Cell.module fields) = .module (moved ρ fields) := rfl
@[simp] theorem moved_cell_callable (label : Text) (named : Bool) :
    moved ρ (Cell.callable label named fields) = .callable label named (moved ρ fields) := rfl
@[simp] theorem moved_cell_unknown (label : Text) :
    moved ρ (Cell.unknown label fields) = .unknown label (moved ρ fields) := rfl
@[simp] theorem moved_cell_param (p : Param) :
    moved ρ (Cell.param p) = .param (moved ρ p) := rfl
@[simp] theorem moved_cell_secret (s : Secret) :
    moved ρ (Cell.secret s) = .secret (moved ρ s) := rfl
@[simp] theorem moved_cell_formula (f : Formula) :
    moved ρ (Cell.formula f) = .formula (moved ρ f) := rfl
@[simp] theorem moved_cell_reset : moved ρ Cell.reset = .reset := rfl
@[simp] theorem moved_cell_pattern (p : Pattern) :
    moved ρ (Cell.pattern p v) = .pattern p (moved ρ v) := rfl
@[simp] theorem moved_cell_regex (source : Text) :
    moved ρ (Cell.regex source) = .regex source := rfl
@[simp] theorem moved_cell_segment (sort : SegmentSort) :
    moved ρ (Cell.segment sort v) = .segment sort (moved ρ v) := rfl
@[simp] theorem moved_cell_api (r : RequiredApi) :
    moved ρ (Cell.api r) = .api (moved ρ r) := rfl
@[simp] theorem moved_cell_endpoint (e : Endpoint) :
    moved ρ (Cell.endpoint e) = .endpoint (moved ρ e) := rfl
@[simp] theorem moved_cell_function (f : CloudFunction) :
    moved ρ (Cell.function f) = .function (moved ρ f) := rfl
@[simp] theorem moved_cell_stack (s : Stack) :
    moved ρ (Cell.stack s) = .stack (moved ρ s) := rfl
@[simp] theorem moved_cell_config (c : Config) :
    moved ρ (Cell.config c) = .config (moved ρ c) := rfl
@[simp] theorem moved_cell_choice (c : Choice) :
    moved ρ (Cell.choice c) = .choice (moved ρ c) := rfl
@[simp] theorem moved_cell_prompt (p : Prompt) :
    moved ρ (Cell.prompt p) = .prompt (moved ρ p) := rfl
@[simp] theorem moved_cell_failure (kind : FailureKind) :
    moved ρ (Cell.failure kind v fields) = .failure kind (moved ρ v) (moved ρ fields) := rfl
@[simp] theorem moved_cell_registry (r : Registry Value) :
    moved ρ (Cell.registry r) = .registry (moved ρ r) := rfl
@[simp] theorem moved_cell_trigger (t : Trigger) :
    moved ρ (Cell.trigger t fields) = .trigger (moved ρ t) (moved ρ fields) := rfl
@[simp] theorem moved_cell_builtin (b : Builtin) :
    moved ρ (Cell.builtin b) = .builtin b := rfl
@[simp] theorem moved_cell_native (label : String) :
    moved ρ (Cell.native label) = .native label := rfl
@[simp] theorem moved_cell_method (m : Method) (self : Option Value) :
    moved ρ (Cell.method m self) = .method m (moved ρ self) := rfl

end

/-! ## Heaps -/

/-- The second heap has the objects of the first one at their new addresses, and will keep the next
ones at theirs. -/
class Heap.Moved (ρ : Relocation) (heap : outParam Heap) (heap' : Heap) : Prop where
  cells : ∀ a, heap'.cells[ρ.address a]? = moved ρ heap.cells[a]?
  size : ∀ n, ρ.address (heap.cells.size + n) = heap'.cells.size + n
  undefined : ∀ n, ρ.undefined (heap.undefined + n + 1) = heap'.undefined + n + 1
  rest : ∀ b, (∀ a, ρ.address a ≠ b) → heap'.cells[b]? = ρ.rest b

end FunctionManifest
