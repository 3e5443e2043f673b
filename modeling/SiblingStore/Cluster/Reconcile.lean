import SiblingStore.Version.Basic

/-!
# Reconciling versions

Replicas answer with versions that may repeat or supersede each other. What
remains are the versions that none dominates, one for every clock.
-/

namespace SiblingStore

def Version.coveredBy (v e : Version) : Bool :=
  v.clock.compare e.clock = .dominatedBy || v.clock.compare e.clock = .equal

def absorb (kept : List Version) (v : Version) : List Version :=
  if kept.any v.coveredBy then kept
  else kept.filter (fun e => v.clock.compare e.clock ≠ .dominates) ++ [v]

/-- The versions that no other dominates; of equal clocks the first remains. -/
def reconcile (vs : List Version) : List Version := vs.foldl absorb []

/-- Whether a replica's versions differ from the reconciled ones, by number or by clock. -/
def isStale (theirs reconciled : List Version) : Bool :=
  theirs.length ≠ reconciled.length ||
    reconciled.any fun r => !theirs.any fun t => t.clock = r.clock

end SiblingStore
