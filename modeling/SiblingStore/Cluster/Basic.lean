import SiblingStore.Cluster.Reconcile
import SiblingStore.Engine.Request
import SiblingStore.Settings.Basic
import SiblingStore.Store

/-!
# Clusters

A cluster keeps a store for each of its replicas and answers requests from those
that are up. Every request goes to all of them; how many have to take part is a
matter of quorum. Deletions are tombstones whose clock descends from everything
the live replicas held, and readers never see them.
-/

namespace SiblingStore

structure Replica where
  store : Store
  up : Bool

structure Cluster where
  replicas : List Replica
  settings : ClusterSettings
  /-- The writer of tombstones. -/
  node : ClientId

namespace Cluster

instance : Inhabited Cluster := ⟨⟨[], {}, default⟩⟩

def empty (settings : ClusterSettings) (node : ClientId) : Cluster :=
  ⟨List.replicate settings.replicas ⟨.empty, true⟩, settings, node⟩

def size (c : Cluster) : Nat := c.replicas.length

def liveCount (c : Cluster) : Nat := c.replicas.countP (·.up)

def isUp (c : Cluster) (i : Nat) : Bool := c.replicas[i]?.any (·.up)

/-- Replica `i` goes down, or comes up again; a number that is no replica's changes nothing. -/
def setUp (c : Cluster) (i : Nat) (up : Bool) : Cluster :=
  { c with replicas := c.replicas.modify i fun r => { r with up } }

/-- How many versions other than tombstones replica `i` holds. -/
def livingAt (c : Cluster) (i : Nat) (l : Location) : Nat :=
  match c.replicas[i]? with
  | some r => Version.countLiving (r.store.versions l)
  | none => 0

def answers (c : Cluster) (l : Location) : List (List Version) :=
  (c.replicas.filter (·.up)).map (·.store.versions l)

def held (c : Cluster) (l : Location) : List Version := (c.answers l).flatten

/-- The number of replicas that have to take part, if the request can be met. -/
def checkQuorum (c : Cluster) (q : Quorum) (standard : Nat) : Except EngineError Nat :=
  let needed := q.required c.size standard
  if needed = 0 ∨ c.size < needed then .error (.malformed (.quorumOutside needed c.size))
  else if c.liveCount < needed then .error (.quorumNotMet needed c.liveCount)
  else .ok needed

def checkLocation (l : Location) : Except EngineError Unit :=
  if l.bucket.isEmpty then .error (.malformed .emptyBucket)
  else if l.key.isEmpty then .error (.malformed .emptyKey)
  else .ok ()

/-- The least clock that covers all the versions. -/
def coverOf (vs : List Version) : Clock := vs.foldl (fun c v => c.merge v.clock) .empty

/-- What a reader sees of reconciled versions. Tombstones are left out but count in
the context, so that a write based on it supersedes the deletion. -/
def replyOf (vs : List Version) : FetchReply where
  versions := (vs.filter (!·.tombstone)).map fun v => ⟨v.value, v.time, v.tag⟩
  context := (coverOf vs).toBytes

def Replica.write (v : Version) (r : Replica) : Replica :=
  if r.up then { r with store := (r.store.put v).2 } else r

/-- How many versions a live replica has after a write, where it kept the version. -/
def Replica.livingAfter (v : Version) (r : Replica) : Nat :=
  match (r.store.put v).1 with
  | .discarded => 0
  | .stored living => living

def write (c : Cluster) (v : Version) : Cluster :=
  { c with replicas := c.replicas.map (Replica.write v) }

/-- The greatest number of versions that a live replica reports for a write. -/
def livingAfter (c : Cluster) (v : Version) : Nat :=
  ((c.replicas.filter (·.up)).map (Replica.livingAfter v)).foldl max 0

def Replica.needsRepair (l : Location) (reconciled : List Version) (r : Replica) : Bool :=
  r.up && isStale (r.store.versions l) reconciled

def Replica.repair (l : Location) (reconciled : List Version) (r : Replica) : Replica :=
  if Replica.needsRepair l reconciled r then { r with store := r.store.putAll reconciled } else r

/-- Hands the reconciled versions to the live replicas that are stale. -/
def repair (c : Cluster) (l : Location) (reconciled : List Version) : Cluster :=
  { c with replicas := c.replicas.map (Replica.repair l reconciled) }

def repairEvents (c : Cluster) (l : Location) (reconciled : List Version) : List Event :=
  c.replicas.zipIdx.filterMap fun p =>
    if Replica.needsRepair l reconciled p.1 then
      some ⟨.debug,
        s!"read repair: replica {p.2} brought to {reconciled.length} version(s)"⟩
    else none

/-- What a request led to. -/
structure Served (α : Type) where
  result : Except EngineError α
  cluster : Cluster
  events : List Event

def refuse {α : Type} (c : Cluster) (e : EngineError) : Served α := ⟨.error e, c, []⟩

def read (c : Cluster) (l : Location) : FetchReply × Cluster × List Event :=
  let reconciled := reconcile (c.held l)
  if c.settings.readRepair && !reconciled.isEmpty then
    (replyOf reconciled, c.repair l reconciled, c.repairEvents l reconciled)
  else (replyOf reconciled, c, [])

def get (c : Cluster) (l : Location) (q : Quorum) : Served FetchReply :=
  match checkLocation l with
  | .error e => c.refuse e
  | .ok () =>
    match c.checkQuorum q c.settings.readQuorum with
    | .error e => c.refuse e
    | .ok _ =>
      let (reply, c, events) := c.read l
      ⟨.ok reply, c, events⟩

def highest (actor : String) (vs : List Version) : UInt64 :=
  (vs.map (·.clock.get actor)).foldl max 0

/-- The clock of a write on top of `context`. The writer's counter goes past all its
earlier writes that are `held`, or a write that builds on nothing would be taken
for one of them. -/
def writeClock (actor : String) (context : Clock) (held : List Version) : Clock :=
  (context.merge (.ofList [(actor, highest actor held)])).increment actor

def put (c : Cluster) (r : PutRequest) (stamp : Stamp) : Served PutReply :=
  match checkLocation r.location with
  | .error e => c.refuse e
  | .ok () =>
    match c.checkQuorum r.quorum c.settings.writeQuorum with
    | .error e => c.refuse e
    | .ok _ =>
      match Clock.ofBytes r.context with
      | .error fault => c.refuse (.malformed (.badContext fault r.context))
      | .ok context =>
        let clock := writeClock r.writer.toHex context (c.held r.location)
        let version := Version.live r.location r.value clock stamp
        let conflict := decide (1 < c.livingAfter version)
        let c := c.write version
        if r.returnBody then
          let (body, c, events) := c.read r.location
          ⟨.ok ⟨conflict, some body⟩, c, events⟩
        else ⟨.ok ⟨conflict, none⟩, c, []⟩

def delete (c : Cluster) (l : Location) (q : Quorum) (stamp : Stamp) : Served Unit :=
  match checkLocation l with
  | .error e => c.refuse e
  | .ok () =>
    match c.checkQuorum q c.settings.writeQuorum with
    | .error e => c.refuse e
    | .ok _ =>
      let clock := (coverOf (c.held l)).increment c.node.toHex
      ⟨.ok (), c.write (.grave l clock stamp),
        [⟨.debug, "tombstoned " ++ l.path ++ s!" on {c.liveCount} replica(s)"⟩]⟩

def candidates (c : Cluster) (bucket : String) : Ordered.Set String :=
  .ofList ((c.replicas.filter (·.up)).flatMap (·.store.table.keys bucket))

/-- The keys with a version that is not a tombstone after reconciliation: a replica
that missed a deletion still lists the key. -/
def listKeys (c : Cluster) (bucket : String) : Served (List String) :=
  if bucket.isEmpty then c.refuse (.malformed .emptyBucket)
  else if c.liveCount = 0 then c.refuse (.quorumNotMet 1 0)
  else
    let isPresent := fun key => (reconcile (c.held ⟨bucket, key⟩)).any (!·.tombstone)
    ⟨.ok ((c.candidates bucket).toList.filter isPresent), c, []⟩

/-- The directory of replica `i` in one whose name may end in a slash. -/
def replicaPath (directory : String) (i : Nat) : String :=
  directory ++ (if directory.endsWith "/" then "" else "/") ++ s!"replica-{i}"

/-- Opens a replica over each of the logs, the first of which is that of replica `i`. -/
def openReplicas (directory : String) (i : Nat) :
    List Disk.Place → Except Store.OpenError (List Replica × List Event)
  | [] => .ok ([], [])
  | place :: places =>
    match Store.openAt (replicaPath directory i) place with
    | .error e => .error e
    | .ok (store, events) =>
      (openReplicas directory (i + 1) places).map fun p =>
        (⟨store, true⟩ :: p.1, events ++ p.2)

def openAt (settings : ClusterSettings) (directory : String) (places : List Disk.Place)
    (node : ClientId) : Except Store.OpenError (Cluster × List Event) :=
  match openReplicas directory 0 places with
  | .error e => .error e
  | .ok (replicas, events) =>
    .ok (⟨replicas, settings, node⟩, events ++
      [⟨.info, s!"local cluster opened: N={settings.replicas} R={settings.readQuorum} "
        ++ s!"W={settings.writeQuorum} at " ++ Text.Quoted.text directory⟩])

end Cluster

end SiblingStore
