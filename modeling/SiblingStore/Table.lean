import SiblingStore.Version.Basic

/-!
# Tables of versions

A table holds the current versions of every location in the order in which they
came. A version that descends from ones already there replaces them, one that
they descend from is dropped, and any other stands beside them. Tombstones are
versions like others, so a deletion keeps superseding older writes that arrive
late.
-/

namespace SiblingStore

structure Table where
  records : List Version
  deriving DecidableEq

inductive WriteEffect where
  /-- The version was already superseded. -/
  | discarded
  /-- The version was kept; the location now has so many that are not tombstones. -/
  | stored (living : Nat)
  deriving Repr, DecidableEq

def Version.countLiving (vs : List Version) : Nat := vs.countP (!·.tombstone)

namespace Table

def empty : Table := ⟨[]⟩

instance : Inhabited Table := ⟨empty⟩

/-- The versions of a location, oldest arrival first. -/
def versions (t : Table) (l : Location) : List Version := t.records.filter (·.location = l)

def supersededBy (v e : Version) : Bool := v.clock.compare e.clock = .dominatedBy

/-- Whether `e` stays when `v` is written: it belongs elsewhere or is concurrent. -/
def survives (v e : Version) : Bool :=
  e.location ≠ v.location || v.clock.compare e.clock = .concurrent

def put (t : Table) (v : Version) : WriteEffect × Table :=
  if (t.versions v.location).any (supersededBy v) then (.discarded, t)
  else
    let t' : Table := ⟨t.records.filter (survives v) ++ [v]⟩
    (.stored (Version.countLiving (t'.versions v.location)), t')

def putAll (t : Table) (vs : List Version) : Table := vs.foldl (fun t v => (t.put v).2) t

def isEmpty (t : Table) : Bool := t.records.isEmpty

def versionCount (t : Table) : Nat := t.records.length

def locations (t : Table) : List Location := (t.records.map (·.location)).eraseDups

def keyCount (t : Table) : Nat := t.locations.length

/-- The keys of a bucket that have a version other than a tombstone, in no
particular order. -/
def keys (t : Table) (bucket : String) : List String :=
  ((t.records.filter fun v => v.location.bucket = bucket && !v.tombstone).map
    (·.location.key)).eraseDups

def buckets (t : Table) : List String := (t.records.map (·.location.bucket)).eraseDups

end Table

end SiblingStore
