import SiblingStore.Duration
import SiblingStore.Json.Fault

/-!
# Errors of an engine

Why an engine refuses a request. An error is transient if asking again may help.
-/

namespace SiblingStore

/-- What is wrong with a request in itself. -/
inductive Rejection where
  | emptyBucket
  | emptyKey
  | quorumOutside (needed replicas : Nat)
  /-- The bytes given as causal context are none. -/
  | badContext (fault : Json.Fault) (context : Bytes)
  | other (text : String)

inductive EngineError where
  | timeout (limit : Duration)
  | quorumNotMet (needed got : Nat)
  | unavailable (text : String)
  | malformed (reason : Rejection)
  | unsupported (text : String)
  | storage (text : String)

def Rejection.messageWith (detail : Json.Fault → Bytes → String) : Rejection → String
  | .emptyBucket => "empty bucket name"
  | .emptyKey => "empty key"
  | .quorumOutside needed replicas => s!"quorum {needed} outside 1..={replicas}"
  | .badContext fault context => "causal context: " ++ detail fault context
  | .other text => text

namespace EngineError

/-- The message, with faults of JSON texts put into words by `detail`. -/
def messageWith (detail : Json.Fault → Bytes → String) : EngineError → String
  | timeout limit => "attempt timed out after " ++ limit.text
  | quorumNotMet needed got => s!"quorum not met: need {needed}, got {got}"
  | unavailable text => "engine unavailable: " ++ text
  | malformed reason => "malformed request: " ++ reason.messageWith detail
  | unsupported text => "unsupported operation: " ++ text
  | storage text => "storage failure: " ++ text

def message (e : EngineError) : String := e.messageWith Json.Fault.message

def isTransient : EngineError → Bool
  | timeout _ | quorumNotMet .. | unavailable _ => true
  | malformed _ | unsupported _ | storage _ => false

/-- The name under which such errors are counted. -/
def className : EngineError → String
  | timeout _ => "timeout"
  | quorumNotMet .. => "quorum"
  | unavailable _ => "unavailable"
  | malformed _ => "malformed"
  | unsupported _ => "unsupported"
  | storage _ => "storage"

end EngineError

end SiblingStore
