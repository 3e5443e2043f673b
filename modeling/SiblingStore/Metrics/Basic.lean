import SiblingStore.Ordered.Map

/-!
# Metrics

Counters of what clients do, and a histogram of how long it takes. Counters
never go down; a labelled counter starts with its first count.
-/

namespace SiblingStore

/-- Observed values, counted by upper bound. -/
structure Histogram where
  /-- For each bound the number of values up to it and above the bound before. -/
  counts : List Nat
  total : Nat
  sum : Float

inductive Counter where
  | fetches
  | stores
  | deletes
  | keyListings
  | retries
  | siblingsObserved
  | conflictsResolved
  | conflictsUnresolved
  | identityDisagreements
  deriving Repr, DecidableEq

structure Metrics where
  fetches : Nat := 0
  stores : Nat := 0
  deletes : Nat := 0
  keyListings : Nat := 0
  retries : Nat := 0
  siblingsObserved : Nat := 0
  conflictsResolved : Nat := 0
  conflictsUnresolved : Nat := 0
  identityDisagreements : Nat := 0
  attempts : Ordered.Map String Nat := .empty
  failedAttempts : Ordered.Map String Nat := .empty
  /-- Seconds that operations took, by kind of request. -/
  latency : Ordered.Map String Histogram := .empty

namespace Metrics

instance : Inhabited Metrics := ⟨{}⟩

def get (m : Metrics) : Counter → Nat
  | .fetches => m.fetches
  | .stores => m.stores
  | .deletes => m.deletes
  | .keyListings => m.keyListings
  | .retries => m.retries
  | .siblingsObserved => m.siblingsObserved
  | .conflictsResolved => m.conflictsResolved
  | .conflictsUnresolved => m.conflictsUnresolved
  | .identityDisagreements => m.identityDisagreements

def add (m : Metrics) (c : Counter) (n : Nat) : Metrics :=
  match c with
  | .fetches => { m with fetches := m.fetches + n }
  | .stores => { m with stores := m.stores + n }
  | .deletes => { m with deletes := m.deletes + n }
  | .keyListings => { m with keyListings := m.keyListings + n }
  | .retries => { m with retries := m.retries + n }
  | .siblingsObserved => { m with siblingsObserved := m.siblingsObserved + n }
  | .conflictsResolved => { m with conflictsResolved := m.conflictsResolved + n }
  | .conflictsUnresolved => { m with conflictsUnresolved := m.conflictsUnresolved + n }
  | .identityDisagreements => { m with identityDisagreements := m.identityDisagreements + n }

def count (m : Metrics) (c : Counter) : Metrics := m.add c 1

def addAttempts (m : Metrics) (kind : String) (n : Nat) : Metrics :=
  { m with attempts := m.attempts.alter kind fun old => old.getD 0 + n }

def addFailedAttempts (m : Metrics) (className : String) (n : Nat) : Metrics :=
  { m with failedAttempts := m.failedAttempts.alter className fun old => old.getD 0 + n }

/-- The upper bounds, in seconds, by which latencies are counted. -/
def latencyBounds : List Float := [0.0005, 0.001, 0.005, 0.01, 0.05, 0.1, 0.5, 1.0, 5.0]

def noLatency : Histogram := ⟨latencyBounds.map fun _ => 0, 0, 0.0⟩

/-- Counts a value at the first bound that is not below it. -/
def tally (x : Float) : List Float → List Nat → List Nat
  | bound :: bounds, n :: ns => if x ≤ bound then (n + 1) :: ns else n :: tally x bounds ns
  | _, ns => ns

def Histogram.observe (h : Histogram) (x : Float) : Histogram :=
  ⟨tally x latencyBounds h.counts, h.total + 1, h.sum + x⟩

def observeLatency (m : Metrics) (kind : String) (seconds : Float) : Metrics :=
  { m with latency := m.latency.alter kind fun h => Histogram.observe (h.getD noLatency) seconds }

end Metrics

end SiblingStore
