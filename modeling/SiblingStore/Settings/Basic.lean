import SiblingStore.ClientId
import SiblingStore.Conflict.Resolver
import SiblingStore.Log
import SiblingStore.Operation.Config
import SiblingStore.Store

/-!
# Settings

What a client and its store are configured with, what they are without
configuration, and which combinations make sense.
-/

namespace SiblingStore

inductive BackoffSettings where
  | none
  | fixed (delayMs : UInt64)
  | exponential (baseMs limitMs : UInt64)
  deriving Repr, DecidableEq

structure OperationSettings where
  retries : Nat := 3
  quorum : Option Nat := none
  returnBody : Bool := false
  allowSiblings : Bool := false
  attemptTimeoutMs : UInt64 := 5000
  backoff : BackoffSettings := .exponential 50 2000
  deriving Repr, DecidableEq

structure ClusterSettings where
  replicas : Nat := 3
  readQuorum : Nat := 2
  writeQuorum : Nat := 2
  readRepair : Bool := true
  deriving Repr, DecidableEq, Inhabited

structure StorageSettings where
  directory : String := "data"
  sync : String := "batch"
  deriving Repr, DecidableEq

structure Settings where
  clientId : Option String := none
  poolSize : Nat := 16
  operation : OperationSettings := {}
  resolver : Strategy := .manual
  cluster : ClusterSettings := {}
  storage : StorageSettings := {}
  deriving Repr, DecidableEq

def BackoffSettings.toBackoff : BackoffSettings → Backoff
  | .none => .none
  | .fixed delayMs => .fixed (.ofMillis delayMs)
  | .exponential baseMs limitMs => .exponential (.ofMillis baseMs) (.ofMillis limitMs)

def OperationConfig.ofSettings (s : OperationSettings) : OperationConfig where
  quorum := .ofOption s.quorum
  retries := s.retries
  returnBody := s.returnBody
  allowSiblings := s.allowSiblings
  context := none
  attemptTimeout := .ofMillis s.attemptTimeoutMs
  backoff := s.backoff.toBackoff

namespace Settings

inductive Refusal where
  | poolSize
  | clientId (text : String)
  | attemptTimeout
  | backoff (baseMs limitMs : UInt64)
  | noReplicas
  | readQuorum (n replicas : Nat)
  | writeQuorum (n replicas : Nat)
  | operationQuorum (n replicas : Nat)
  deriving Repr, DecidableEq

def outside (name : String) (n replicas : Nat) : String :=
  s!"{name} ({n}) must be in 1..=cluster.replicas ({replicas})"

def Refusal.message : Refusal → String
  | .poolSize => "pool_size must be > 0"
  | .clientId text => s!"client_id ({text}) must be 8 hex characters"
  | .attemptTimeout => "operation.attempt_timeout_ms must be > 0"
  | .backoff baseMs limitMs =>
    s!"operation.backoff.base_ms ({baseMs}) must be <= max_ms ({limitMs})"
  | .noReplicas => "cluster.replicas must be > 0"
  | .readQuorum n replicas => outside "cluster.r" n replicas
  | .writeQuorum n replicas => outside "cluster.w" n replicas
  | .operationQuorum n replicas => outside "operation.rw" n replicas

def isClientId (text : String) : Bool :=
  Text.Utf8.size text = 8 && (Text.Hex.decode text).toOption.isSome

def badQuorum (n replicas : Nat) : Bool := n = 0 || replicas < n

/-- The exponential backoff whose base exceeds its limit. -/
def badBackoff : BackoffSettings → Option (UInt64 × UInt64)
  | .exponential baseMs limitMs => if limitMs < baseMs then some (baseMs, limitMs) else none
  | _ => none

def validate (s : Settings) : Except Refusal Unit :=
  if s.poolSize = 0 then .error .poolSize
  else if let some text := s.clientId.filter (!isClientId ·) then .error (.clientId text)
  else if s.operation.attemptTimeoutMs = 0 then .error .attemptTimeout
  else if let some (baseMs, limitMs) := badBackoff s.operation.backoff then
    .error (.backoff baseMs limitMs)
  else if s.cluster.replicas = 0 then .error .noReplicas
  else if badQuorum s.cluster.readQuorum s.cluster.replicas then
    .error (.readQuorum s.cluster.readQuorum s.cluster.replicas)
  else if badQuorum s.cluster.writeQuorum s.cluster.replicas then
    .error (.writeQuorum s.cluster.writeQuorum s.cluster.replicas)
  else if let some n := s.operation.quorum.filter (badQuorum · s.cluster.replicas) then
    .error (.operationQuorum n s.cluster.replicas)
  else .ok ()

inductive LoadError where
  | disk (fault : Disk.Fault)
  /-- The text is not YAML, or not of the right shape. -/
  | yaml
  | invalid (refusal : Refusal)

def LoadError.message : LoadError → String
  | .disk fault => "failed to read config file: " ++ fault.message
  | .yaml => "failed to parse YAML"
  | .invalid refusal => "invalid config: " ++ refusal.message

end Settings

end SiblingStore
