import SiblingStore.Client.Call
import SiblingStore.Settings.Basic

/-!
# Clients

A client is a writer's identity, a pool to take connections from and parameters
to start from. A client that is made anew has a pool of its own, behind those there
are already; one that is given another size leaves its old pool behind. A client's
operations work on bytes; what their replies mean to the caller is settled when they
arrive.
-/

namespace SiblingStore

/-- An operation that has not begun: refused out of hand, or a call and what its
reply comes to. -/
inductive Pending (α : Type) where
  | refused (e : OperationError)
  | calls (call : Call) (conclude : Reply → World → Except OperationError α × World)

namespace Pending

variable {α β : Type}

def ofCall (call : Call) (read : Reply → α) : Pending α := .calls call fun r w => (.ok (read r), w)

def andThen (p : Pending α) (f : α → World → Except OperationError β × World) : Pending β :=
  match p with
  | refused e => .refused e
  | calls call conclude =>
    .calls call fun r w =>
      match conclude r w with
      | (.error e, w) => (.error e, w)
      | (.ok a, w) => f a w

def map (p : Pending α) (f : α → β) : Pending β := p.andThen fun a w => (.ok (f a), w)

def outcome (conclude : Reply → World → Except OperationError α × World)
    (result : Except OperationError Reply) (w : World) : Except OperationError α × World :=
  match result with
  | .error e => (.error e, w)
  | .ok r => conclude r w

end Pending

structure Client where
  id : ClientId
  pool : Nat
  defaults : OperationConfig
  deriving Inhabited

namespace Client

def standard (id : ClientId) (pools : List Pool) : Client × List Pool :=
  (⟨id, pools.length, .standard⟩, pools ++ [.standard])

/-- The client that settings describe. If they do not name it, it goes by an identity that was
drawn for it. -/
def ofSettings (s : Settings) (drawn : ClientId) (pools : List Pool) :
    Except ClientId.Refusal (Client × List Pool) :=
  match s.clientId.elim (.ok drawn) ClientId.ofHex with
  | .error refusal => .error refusal
  | .ok id => .ok (⟨id, pools.length, .ofSettings s.operation⟩, pools ++ [.ofSize s.poolSize])

def withPoolSize (c : Client) (size : Nat) (pools : List Pool) : Client × List Pool :=
  ({ c with pool := pools.length }, pools ++ [.ofSize size])

def call (c : Client) (goal : Goal) (config : OperationConfig) : Call :=
  .start c.pool c.id goal config

def fetch (c : Client) (l : Location) (config : OperationConfig) : Pending FetchReply :=
  .ofCall (c.call (.fetch l) config) (·.found)

def store (c : Client) (l : Location) (value : Bytes) (config : OperationConfig) :
    Pending PutReply :=
  .ofCall (c.call (.store l value) config) (·.stored)

def delete (c : Client) (l : Location) (config : OperationConfig) : Pending Unit :=
  .ofCall (c.call (.delete l) config) fun _ => ()

def keys (c : Client) (bucket : String) (config : OperationConfig) : Pending (List String) :=
  .ofCall (c.call (.keys bucket) config) (·.names)

/-- No further attempt gets a connection; attempts that hold one finish. -/
def close (c : Client) (w : World) : World :=
  (w.tell [⟨.debug, "client " ++ c.id.toHex ++ " closed"⟩]).setPool c.pool (w.pool c.pool).close

end Client

end SiblingStore
