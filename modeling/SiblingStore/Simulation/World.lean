import SiblingStore.Client.Pool
import SiblingStore.Cluster.Basic
import SiblingStore.Engine.Chaos
import SiblingStore.Engine.Script
import SiblingStore.Metrics.Basic

/-!
# The world of clients

What operations share: a clock that counts milliseconds, the engine with the
faults in front of it, the pools of connections, the metrics and the trace.
-/

namespace SiblingStore

inductive Backend where
  | cluster (c : Cluster)
  | script (s : Script)

structure World where
  /-- Milliseconds since the start. -/
  now : Nat
  backend : Backend
  chaos : Chaos
  pools : List Pool
  metrics : Metrics
  /-- The trace, latest first. -/
  events : List Event
  served : Nat
  /-- Causal contexts that were put aside, latest first. -/
  contexts : List (String × Bytes)
  /-- The replicas whose logs have been removed from the disk since they were opened. -/
  removed : List Nat
  /-- The identities under which the clusters opened so far delete. -/
  nodes : List ClientId

namespace Stamp

def digits (n : Nat) : String := String.ofList ((Nat.toDigits 10 n).leftpad 12 '0')

/-- The stamp of write number `n`: later writes have later times. -/
def ofNat (n : Nat) : Stamp :=
  ⟨"00000000-0000-4000-8000-" ++ digits n, UInt64.ofNat (1700000000000 + n)⟩

end Stamp

def Backend.serve (b : Backend) (r : Request) (stamp : Stamp) :
    ScriptedReply × Backend × List Event :=
  match b with
  | .script s =>
    let (reply, s) := s.ask r
    (reply, .script s, [])
  | .cluster c =>
    match r with
    | .get l q =>
      let o := c.get l q
      (⟨o.result.map .fetched, some 0⟩, .cluster o.cluster, o.events)
    | .put p =>
      let o := c.put p stamp
      (⟨o.result.map .put, some 0⟩, .cluster o.cluster, o.events)
    | .delete l q =>
      let o := c.delete l q stamp
      (⟨o.result.map fun _ => .deleted, some 0⟩, .cluster o.cluster, o.events)
    | .listKeys bucket =>
      let o := c.listKeys bucket
      (⟨o.result.map .keys, some 0⟩, .cluster o.cluster, o.events)

namespace World

def ofBackend (b : Backend) (chaos : Chaos) : World := ⟨0, b, chaos, [], {}, [], 0, [], [], []⟩

instance : Inhabited World := ⟨ofBackend (.cluster default) .none⟩

def pool (w : World) (i : Nat) : Pool := w.pools.getD i default

def setPool (w : World) (i : Nat) (p : Pool) : World := { w with pools := w.pools.set i p }

/-- The most milliseconds that anyone waits at once: thirty years. -/
def longestWait : Nat := 30 * 365 * 86400 * 1000

def after (w : World) (millis : Nat) : Nat := w.now + min millis longestWait

def tell (w : World) (es : List Event) : World := { w with events := es.reverse ++ w.events }

def count (w : World) (c : Counter) : World := { w with metrics := w.metrics.count c }

def serve (w : World) (r : Request) : ScriptedReply × World :=
  let (reply, backend, events) := w.backend.serve r (.ofNat w.served)
  (reply, { w with backend, served := w.served + 1 }.tell events)

def cluster? (w : World) : Option Cluster :=
  match w.backend with
  | .cluster c => some c
  | .script _ => none

def mapCluster (w : World) (f : Cluster → Cluster) : World :=
  match w.backend with
  | .cluster c => { w with backend := .cluster (f c) }
  | .script _ => w

/-- The context put aside last under a name; without one, none at all. -/
def context (w : World) (name : String) : Bytes :=
  ((w.contexts.find? (·.1 = name)).map (·.2)).getD []

def saveContext (w : World) (name : String) (context : Bytes) : World :=
  { w with contexts := (name, context) :: w.contexts }

end World

end SiblingStore
