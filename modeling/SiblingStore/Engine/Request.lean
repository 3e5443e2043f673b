import SiblingStore.ClientId
import SiblingStore.Engine.Error
import SiblingStore.Engine.Quorum
import SiblingStore.Location

/-!
# Requests and replies

What a client asks of an engine and what it is told. A causal context is opaque
to the client: bytes that a read returns and a later write gives back.
-/

namespace SiblingStore

inductive RequestKind where
  | get
  | put
  | delete
  | listKeys
  deriving Repr, DecidableEq, Inhabited

def RequestKind.name : RequestKind → String
  | .get => "get"
  | .put => "put"
  | .delete => "delete"
  | .listKeys => "list_keys"

structure PerKind (α : Type) where
  get : α
  put : α
  delete : α
  listKeys : α
  deriving DecidableEq, Inhabited

namespace PerKind

variable {α : Type}

def same (a : α) : PerKind α := ⟨a, a, a, a⟩

def of (p : PerKind α) : RequestKind → α
  | .get => p.get
  | .put => p.put
  | .delete => p.delete
  | .listKeys => p.listKeys

def set (p : PerKind α) (kind : RequestKind) (a : α) : PerKind α :=
  match kind with
  | .get => { p with get := a }
  | .put => { p with put := a }
  | .delete => { p with delete := a }
  | .listKeys => { p with listKeys := a }

def toList (p : PerKind α) : List α := [p.get, p.put, p.delete, p.listKeys]

@[simp] theorem of_set_self (p : PerKind α) (kind : RequestKind) (a : α) :
    (p.set kind a).of kind = a := by
  cases kind <;> rfl

theorem of_set_of_ne (p : PerKind α) {kind kind' : RequestKind} (h : kind' ≠ kind) (a : α) :
    (p.set kind a).of kind' = p.of kind' := by
  cases kind <;> cases kind' <;> first | rfl | exact absurd rfl h

end PerKind

structure RawVersion where
  value : Bytes
  time : UInt64
  tag : String
  deriving DecidableEq

/-- What a read finds: any number of versions and the context that covers them. -/
structure FetchReply where
  versions : List RawVersion
  context : Bytes
  deriving DecidableEq, Inhabited

structure PutRequest where
  location : Location
  value : Bytes
  /-- The context of an earlier read; empty for a write that builds on nothing. -/
  context : Bytes
  writer : ClientId
  quorum : Quorum
  returnBody : Bool
  deriving DecidableEq

structure PutReply where
  /-- Whether the write now stands beside concurrent versions. -/
  conflict : Bool
  body : Option FetchReply
  deriving DecidableEq, Inhabited

inductive Request where
  | get (location : Location) (quorum : Quorum)
  | put (request : PutRequest)
  | delete (location : Location) (quorum : Quorum)
  | listKeys (bucket : String)
  deriving DecidableEq

def Request.kind : Request → RequestKind
  | .get .. => .get
  | .put _ => .put
  | .delete .. => .delete
  | .listKeys _ => .listKeys

inductive Reply where
  | fetched (reply : FetchReply)
  | put (reply : PutReply)
  | deleted
  | keys (names : List String)
  deriving DecidableEq

namespace Reply

/-- What a read found; other replies hold no versions. -/
def found : Reply → FetchReply
  | fetched r => r
  | _ => default

def stored : Reply → PutReply
  | put r => r
  | _ => default

def names : Reply → List String
  | keys l => l
  | _ => []

end Reply

end SiblingStore
