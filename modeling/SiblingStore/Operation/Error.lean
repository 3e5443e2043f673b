import SiblingStore.Conflict.Resolver
import SiblingStore.Document.Codec
import SiblingStore.Engine.Request

/-!
# Errors of operations

Why an operation of a client failed, after all its attempts.
-/

namespace SiblingStore

inductive OperationError where
  | noKey (bucket typeName : String)
  | unresolved (conflict : Unresolved)
  | exhausted (kind : RequestKind) (target : Target) (attempts : Nat) (last : EngineError)
  | permanent (kind : RequestKind) (target : Target) (attempts : Nat) (cause : EngineError)
  | conversion (location : Location) (cause : ConversionError)
  | closed

namespace OperationError

def messageWith (detail : Json.Fault → Bytes → String) : OperationError → String
  | noKey bucket typeName => s!"no key specified for {typeName} in bucket {bucket}"
  | unresolved conflict => conflict.message
  | exhausted kind target attempts last =>
    kind.name ++ " on " ++ target.path ++ s!" failed after {attempts} attempts: "
      ++ last.messageWith detail
  | permanent kind target _ cause =>
    kind.name ++ " on " ++ target.path ++ " failed permanently: " ++ cause.messageWith detail
  | conversion location cause =>
    "conversion failed for " ++ location.path ++ ": " ++ cause.messageWith detail
  | closed => "client is closed"

def name : OperationError → String
  | noKey .. => "NoKeySpecified"
  | unresolved _ => "UnresolvedConflict"
  | exhausted .. => "RetriesExhausted"
  | permanent .. => "Permanent"
  | conversion .. => "Conversion"
  | closed => "ClientClosed"

def attempts? : OperationError → Option Nat
  | exhausted _ _ attempts _ | permanent _ _ attempts _ => some attempts
  | _ => none

def isConflict : OperationError → Bool
  | unresolved _ => true
  | _ => false

def engineError? : OperationError → Option EngineError
  | exhausted _ _ _ e | permanent _ _ _ e => some e
  | _ => none

end OperationError

end SiblingStore
