import SiblingStore.Clock.Basic
import SiblingStore.Location

/-!
# Versions

One version of a key as replicas hold it. A deletion is a version too: a
tombstone, which has a clock but no value.
-/

namespace SiblingStore

/-- What tells one write from every other: a tag of its own and the wall-clock
time in milliseconds. -/
structure Stamp where
  tag : String
  time : UInt64
  deriving Repr, DecidableEq

structure Version where
  location : Location
  clock : Clock
  value : Bytes
  tombstone : Bool
  tag : String
  time : UInt64
  deriving DecidableEq

namespace Version

def live (location : Location) (value : Bytes) (clock : Clock) (stamp : Stamp) : Version :=
  ⟨location, clock, value, false, stamp.tag, stamp.time⟩

/-- The version that marks a deletion. -/
def grave (location : Location) (clock : Clock) (stamp : Stamp) : Version :=
  ⟨location, clock, [], true, stamp.tag, stamp.time⟩

end Version

end SiblingStore
