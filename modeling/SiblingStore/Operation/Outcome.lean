import SiblingStore.Engine.Error

/-!
# Outcomes of attempts

An operation is a sequence of attempts. Its state says whether it is still
waiting for one, and every finished attempt moves the state on.
-/

namespace SiblingStore

inductive Outcome where
  | success
  | transient
  | permanent
  deriving Repr, DecidableEq

def Outcome.name : Outcome → String
  | .success => "Success"
  | .transient => "Transient"
  | .permanent => "Permanent"

def Outcome.ofError (e : EngineError) : Outcome := if e.isTransient then .transient else .permanent

def Outcome.of {α : Type} : Except EngineError α → Outcome
  | .ok _ => .success
  | .error e => .ofError e

inductive OperationState where
  | pending
  /-- Waits to make attempt number `attempt`, counted from one. -/
  | retrying (attempt : Nat)
  | succeeded
  | failed
  deriving Repr, DecidableEq

namespace OperationState

def isTerminal : OperationState → Bool
  | succeeded | failed => true
  | pending | retrying _ => false

/-- The state after attempt number `attempts`, with `retries` more than the first allowed. -/
def advance (s : OperationState) (outcome : Outcome) (attempts retries : Nat) : OperationState :=
  if s.isTerminal then s
  else
    match outcome with
    | .success => succeeded
    | .permanent => failed
    | .transient => if attempts ≤ retries then retrying (attempts + 1) else failed

end OperationState

end SiblingStore
