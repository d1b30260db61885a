import FunctionManifest.Heap.Collection
import FunctionManifest.Heap.Shown

/-!
# Endpoint options

The options that a trigger accepts and the keys they have in a manifest. An option whose value is
null counts as not given.
-/

namespace FunctionManifest

inductive EndpointOption where
  | region
  | memory
  | cpu
  | timeout
  | minInstances
  | maxInstances
  | concurrency
  | serviceAccount
  | ingress
  | vpc
  | environment
  | secrets
  deriving DecidableEq, Inhabited, Repr

namespace EndpointOption

def all : List EndpointOption :=
  [.region, .memory, .cpu, .timeout, .minInstances, .maxInstances, .concurrency, .serviceAccount,
    .ingress, .vpc, .environment, .secrets]

def keyword : EndpointOption → String
  | .region => "region"
  | .memory => "memory"
  | .cpu => "cpu"
  | .timeout => "timeout_seconds"
  | .minInstances => "min_instances"
  | .maxInstances => "max_instances"
  | .concurrency => "concurrency"
  | .serviceAccount => "service_account"
  | .ingress => "ingress"
  | .vpc => "vpc"
  | .environment => "environment_variables"
  | .secrets => "secrets"

def manifestKey : EndpointOption → String
  | .region => "region"
  | .memory => "availableMemoryMb"
  | .cpu => "cpu"
  | .timeout => "timeoutSeconds"
  | .minInstances => "minInstances"
  | .maxInstances => "maxInstances"
  | .concurrency => "concurrency"
  | .serviceAccount => "serviceAccountEmail"
  | .ingress => "ingressSettings"
  | .vpc => "vpc"
  | .environment => "environmentVariables"
  | .secrets => "secretEnvironmentVariables"

/-- Options are known by texts. -/
def ofKeyword? : Value → Option EndpointOption
  | .text keyword => all.find? (keyword = ·.keyword)
  | _ => none

/-- A secret or a param is mounted under its name. -/
def secretKey (heap : Heap) (item : Value) : Value :=
  match heap.cell? item with
  | some (.param p) => p.name
  | some (.secret s) => s.name
  | _ => item

/-- One region is a list of one, and each secret is an entry of its own. -/
def normalize (heap : Heap) (option : EndpointOption) (v : Value) : Except Failure Value :=
  match option, v with
  | .region, .text name => .ok (.texts [name])
  | .secrets, v => do
    return .list ((← heap.items v).map fun item => .named (field "key" (secretKey heap item)))
  | _, v => .ok v

end EndpointOption

def buildOption (heap : Heap) (keyword v : Value) : Except Failure Fields :=
  match v with
  | .null => .ok []
  | v =>
    match EndpointOption.ofKeyword? keyword with
    | none => do throw (.unknownOption (← heap.shown keyword))
    | some option => do return field option.manifestKey (← option.normalize heap v)

/-- The options under their manifest keys, in the order they were given. -/
def buildOptions (heap : Heap) : Entries → Except Failure Fields
  | [] => .ok []
  | (keyword, v) :: rest => do
    let option ← buildOption heap keyword v
    return option ++ (← buildOptions heap rest)

end FunctionManifest
