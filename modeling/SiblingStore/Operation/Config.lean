import SiblingStore.Engine.Quorum
import SiblingStore.Operation.Backoff
import SiblingStore.Bytes

/-!
# Operation parameters

What one call may ask for beyond its location and value.
-/

namespace SiblingStore

structure OperationConfig where
  quorum : Quorum
  /-- Retries after the first attempt, no more than a word of 32 bits can say. -/
  retries : Nat
  returnBody : Bool
  /-- Whether a fetch hands out siblings instead of resolving them. -/
  allowSiblings : Bool
  /-- The context to write on top of; without one, a store reads first. -/
  context : Option Bytes
  attemptTimeout : Duration
  backoff : Backoff
  deriving DecidableEq

def OperationConfig.standard : OperationConfig where
  quorum := .standard
  retries := 3
  returnBody := false
  allowSiblings := false
  context := none
  attemptTimeout := .ofMillis 5000
  backoff := .standard

instance : Inhabited OperationConfig := ⟨.standard⟩

end SiblingStore
