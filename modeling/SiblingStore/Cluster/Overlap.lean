import SiblingStore.Cluster.Basic

/-!
# Writes that overlap

A write is more than one step. It reads the live replicas one by one, takes its clock
from what it gathered, and then writes to them one by one. If its reply is to tell what
is there now, it asks them all again and repairs those that answered with something
stale. A replica is held for one step only, so the steps of several writes come in any
order.
-/

namespace SiblingStore

/-- A write under way, with the replicas that it still has to turn to. -/
structure Job where
  request : PutRequest
  stamp : Stamp
  context : Clock
  unread : List Nat
  unwritten : List Nat
  unasked : List Nat
  gathered : List Version := []
  /-- The greatest number of versions that a replica reported so far. -/
  living : Nat := 0
  /-- What replicas answered after the write. -/
  answers : List (Nat × List Version) := []
  /-- How many of the stale replicas have been repaired. -/
  repaired : Nat := 0

inductive Act where
  | read
  | write
  | ask
  | repair
  deriving Repr, DecidableEq

namespace Job

def location (j : Job) : Location := j.request.location

/-- The version to write; it stands once everything has been read. -/
def version (j : Job) : Version :=
  .live j.location j.request.value
    (Cluster.writeClock j.request.writer.toHex j.context j.gathered) j.stamp

def reconciled (j : Job) : List Version := reconcile (j.answers.flatMap (·.2))

/-- The replicas to repair, in the order in which they answered. -/
def stale (j : Job) (readRepair : Bool) : List Nat :=
  if readRepair && !j.reconciled.isEmpty then
    (j.answers.filter fun a => isStale a.2 j.reconciled).map (·.1)
  else []

def isDone (j : Job) (readRepair : Bool) : Bool :=
  j.unread.isEmpty && j.unwritten.isEmpty && j.unasked.isEmpty &&
    j.repaired = (j.stale readRepair).length

def reply (j : Job) : PutReply :=
  ⟨decide (1 < j.living),
    if j.request.returnBody then some (Cluster.replyOf j.reconciled) else none⟩

def act (j : Job) (readRepair : Bool) (i : Nat) (r : Replica) : Act → Option (Job × Replica)
  | .read =>
    if i ∈ j.unread then
      some ({ j with
        unread := j.unread.erase i
        gathered := j.gathered ++ r.store.versions j.location }, r)
    else none
  | .write =>
    if j.unread = [] ∧ i ∈ j.unwritten then
      some ({ j with
        unwritten := j.unwritten.erase i
        living := max j.living (Cluster.Replica.livingAfter j.version r) },
        { r with store := (r.store.put j.version).2 })
    else none
  | .ask =>
    if j.unread = [] ∧ j.unwritten = [] ∧ i ∈ j.unasked then
      some ({ j with
        unasked := j.unasked.erase i
        answers := j.answers ++ [(i, r.store.versions j.location)] }, r)
    else none
  | .repair =>
    if j.unread = [] ∧ j.unwritten = [] ∧ j.unasked = [] ∧
        (j.stale readRepair)[j.repaired]? = some i then
      some ({ j with repaired := j.repaired + 1 },
        { r with store := r.store.putAll j.reconciled })
    else none

end Job

namespace Cluster

def live (c : Cluster) : List Nat := (c.replicas.zipIdx.filter (·.1.up)).map (·.2)

/-- A write that has been admitted but has not turned to any replica. -/
def startPut (c : Cluster) (r : PutRequest) (stamp : Stamp) : Except EngineError Job :=
  match checkLocation r.location with
  | .error e => .error e
  | .ok () =>
    match c.checkQuorum r.quorum c.settings.writeQuorum with
    | .error e => .error e
    | .ok _ =>
      match Clock.ofBytes r.context with
      | .error fault => .error (.malformed (.badContext fault r.context))
      | .ok context =>
        .ok { request := r, stamp, context, unread := c.live, unwritten := c.live
              unasked := if r.returnBody then c.live else [] }

end Cluster

/-- A cluster and `n` writes under way. -/
structure Traffic (n : Nat) where
  cluster : Cluster
  jobs : Fin n → Job

namespace Traffic

structure Move (n : Nat) where
  job : Fin n
  act : Act
  replica : Nat
  deriving DecidableEq

variable {n : Nat}

def step (x : Traffic n) (m : Move n) : Option (Traffic n) :=
  match x.cluster.replicas[m.replica]? with
  | none => none
  | some r =>
    match (x.jobs m.job).act x.cluster.settings.readRepair m.replica r m.act with
    | none => none
    | some (j, r) =>
      some ⟨{ x.cluster with replicas := x.cluster.replicas.set m.replica r },
        fun p => if p = m.job then j else x.jobs p⟩

/-- All steps one after another, unless one of them is not due. -/
def run (x : Traffic n) (ms : List (Move n)) : Option (Traffic n) := ms.foldlM step x

end Traffic

end SiblingStore
