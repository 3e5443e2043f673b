import SiblingStore.Ordered.Map

/-!
# Vector clocks

A clock counts, for every writer, how many of its writes a version builds on. A
writer without an entry counts zero. Clocks are compared counter by counter:
one dominates another if it is nowhere below and not everywhere equal.
-/

namespace SiblingStore

structure Clock where
  entries : Ordered.Map String UInt64
  deriving DecidableEq

inductive Causality where
  | equal
  | dominates
  | dominatedBy
  | concurrent
  deriving Repr, DecidableEq

def Causality.name : Causality → String
  | .equal => "equal"
  | .dominates => "dominates"
  | .dominatedBy => "dominated_by"
  | .concurrent => "concurrent"

namespace Clock

def empty : Clock := ⟨.empty⟩

instance : Inhabited Clock := ⟨empty⟩

def isEmpty (c : Clock) : Bool := c.entries.isEmpty

def actors (c : Clock) : List String := c.entries.keys

def get (c : Clock) (actor : String) : UInt64 := (c.entries.find? actor).getD 0

def ofList (l : List (String × UInt64)) : Clock := ⟨.ofList l⟩

def increment (c : Clock) (actor : String) : Clock :=
  ⟨c.entries.alter actor fun n => n.getD 0 + 1⟩

def merge (a b : Clock) : Clock := ⟨a.entries.mergeWith max b.entries⟩

def covers (a b : Clock) : Bool :=
  (a.actors ++ b.actors).all fun actor => b.get actor ≤ a.get actor

def compare (a b : Clock) : Causality :=
  match a.covers b, b.covers a with
  | true, true => .equal
  | true, false => .dominates
  | false, true => .dominatedBy
  | false, false => .concurrent

end Clock

end SiblingStore
