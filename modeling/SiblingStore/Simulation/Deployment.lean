import SiblingStore.Simulation.World

/-!
# Deployments

How a cluster is opened over the logs that an earlier one left, and what can
befall replicas and their logs meanwhile. A log that has been removed stays in
use until its replica is opened again, and is then lost.
-/

namespace SiblingStore

structure Deployment where
  directory : String
  settings : ClusterSettings
  chaos : Chaos
  pools : List Pool

namespace Deployment

/-- The identity under which the cluster of opening number `n` deletes. -/
def nodeOf (n : Nat) : ClientId := .ofSeed (Text.Utf8.encode s!"node {n}")

/-- The places of the logs before the first opening, where directories at the paths `made`
have been put, with those that lead to them. -/
def firstPlaces (d : Deployment) (made : List String) : List Disk.Place :=
  (List.range d.settings.replicas).map fun i =>
    let path := Store.logPath (Cluster.replicaPath d.directory i)
    if made.any (Disk.leadsThrough · path) then .directory else .absent

/-- Opens the cluster over logs; all replicas are up, and faults and pools start afresh. -/
def openOver (d : Deployment) (places : List Disk.Place) (w : World) :
    Except Store.OpenError World :=
  let node := nodeOf w.nodes.length
  match Cluster.openAt d.settings d.directory places node with
  | .error e => .error e
  | .ok (c, events) =>
    .ok ({ w with
      backend := .cluster c
      chaos := d.chaos
      pools := d.pools
      removed := []
      nodes := w.nodes ++ [node] }.tell events)

def placesOf (w : World) (c : Cluster) : List Disk.Place :=
  c.replicas.zipIdx.map fun p => if p.2 ∈ w.removed then .absent else .file p.1.store.log

def reopen (d : Deployment) (w : World) : Except Store.OpenError World :=
  match w.cluster? with
  | none => .ok { w with chaos := d.chaos, pools := d.pools }
  | some c => d.openOver (placesOf w c) w

end Deployment

namespace World

/-- Takes replica `i` off the network or puts it back; a number that is no replica's
goes unnoticed. -/
def connect (w : World) (i : Nat) (up : Bool) : World :=
  match w.cluster? with
  | none => w
  | some c =>
    if i < c.size then
      { w with backend := .cluster (c.setUp i up) }.tell
        [⟨.debug, s!"replica {i} " ++ if up then "healed" else "partitioned"⟩]
    else w

def hasLog (w : World) (i : Nat) : Bool :=
  w.cluster?.any (i < ·.size) && !(w.removed.contains i)

def removeLog (w : World) (i : Nat) : World :=
  if w.hasLog i then { w with removed := i :: w.removed } else w

def cutLog (w : World) (i n : Nat) : World :=
  if w.hasLog i then
    w.mapCluster fun c =>
      { c with replicas := c.replicas.modify i fun r =>
          { r with store := { r.store with log := r.store.log.take (r.store.log.length - n) } } }
  else w

end World

end SiblingStore
