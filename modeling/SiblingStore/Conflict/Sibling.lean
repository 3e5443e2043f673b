import SiblingStore.Bytes
import SiblingStore.Location

/-!
# Siblings

Concurrent versions of one key, decoded. A set of siblings has at least one
member; with more than one it is a conflict.
-/

namespace SiblingStore

structure Sibling (α : Type) where
  value : α
  /-- When it was written, in milliseconds. -/
  time : UInt64
  tag : String

/-- Siblings are alike if their values are, whatever their tags and times. -/
def Sibling.alike {α : Type} [BEq α] (a b : Sibling α) : Bool := a.value == b.value

structure SiblingSet (α : Type) where
  location : Location
  context : Bytes
  members : List (Sibling α)
  nonempty : members ≠ []

namespace SiblingSet

variable {α : Type}

/-- The siblings of a location; none if the key is absent. -/
def of? (location : Location) (context : Bytes) (members : List (Sibling α)) :
    Option (SiblingSet α) :=
  if h : members = [] then none else some ⟨location, context, members, h⟩

def single (location : Location) (context : Bytes) (member : Sibling α) : SiblingSet α :=
  ⟨location, context, [member], by simp⟩

def first (s : SiblingSet α) : Sibling α := s.members.head s.nonempty

def size (s : SiblingSet α) : Nat := s.members.length

def isConflict (s : SiblingSet α) : Bool := 1 < s.size

def values (s : SiblingSet α) : List α := s.members.map (·.value)

end SiblingSet

inductive Fetched (α : Type) where
  /-- One value: the only version, or what resolving made of several. -/
  | value (value : α) (context : Bytes)
  /-- Siblings that the caller wanted to see. -/
  | siblings (set : SiblingSet α)

namespace Fetched

variable {α : Type}

def value? : Fetched α → Option α
  | value v _ => some v
  | siblings _ => none

def siblings? : Fetched α → Option (SiblingSet α)
  | value .. => none
  | siblings s => some s

/-- The context for a write that is to supersede what was read. -/
def context : Fetched α → Bytes
  | value _ c => c
  | siblings s => s.context

end Fetched

end SiblingStore
