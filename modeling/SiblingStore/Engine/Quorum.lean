/-!
# Quorums

How many replicas have to answer a request.
-/

namespace SiblingStore

inductive Quorum where
  /-- What the engine does when nothing is asked for. -/
  | standard
  | one
  | majority
  | all
  | exactly (n : Nat)
  deriving Repr, DecidableEq, Inhabited

namespace Quorum

/-- The number of answers wanted of `replicas` replicas. -/
def required (q : Quorum) (replicas standardCount : Nat) : Nat :=
  match q with
  | standard => standardCount
  | one => 1
  | majority => replicas / 2 + 1
  | all => replicas
  | exactly n => n

def ofOption : Option Nat → Quorum
  | none => standard
  | some n => exactly n

end Quorum

end SiblingStore
