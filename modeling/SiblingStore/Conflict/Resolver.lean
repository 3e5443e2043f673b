import SiblingStore.Conflict.Sibling
import SiblingStore.Ordered.Set
import SiblingStore.Trace

/-!
# Resolving conflicts

A resolver makes one value of a set of siblings or declines to. It sees values,
times and tags, never causal history, and a single sibling is always resolved to
itself.
-/

namespace SiblingStore

inductive Unresolved.Reason where
  | manual
  | notSetLike
  /-- Two siblings are of different identity; the smaller name comes first. -/
  | identities (a b : String)
  | other (text : String)
  deriving Repr, DecidableEq

def Unresolved.Reason.message : Unresolved.Reason → String
  | .manual => "manual resolution required"
  | .notSetLike => "union merge needs a set-like value"
  | .identities a b =>
    "siblings disagree on identity: " ++ Text.Quoted.text a ++ " vs " ++ Text.Quoted.text b
  | .other text => text

structure Unresolved where
  location : Location
  siblings : Nat
  reason : Unresolved.Reason
  deriving Repr, DecidableEq

namespace Unresolved

def message (u : Unresolved) : String :=
  "unresolved conflict at " ++ u.location.path ++ s!": {u.siblings} siblings ("
    ++ u.reason.message ++ ")"

def isDisagreement (u : Unresolved) : Bool :=
  match u.reason with
  | .identities .. => true
  | _ => false

/-- What an operator is told: only a disagreement on identity is worth a warning. -/
def events (u : Unresolved) : List Event :=
  match u.reason with
  | .identities a b =>
    [⟨.warn, "identity disagreement at " ++ u.location.path ++ ": " ++ Text.Quoted.text a
      ++ " vs " ++ Text.Quoted.text b⟩]
  | _ => []

end Unresolved

abbrev Resolver (α : Type) := SiblingSet α → Except Unresolved α

/-- A value that is a set of members, with or without an identity. -/
structure SetLike (α μ : Type) [Ord μ] where
  identity : α → Option String
  members : α → List μ
  assemble : Option String → Ordered.Set μ → α

def SetLike.plain (μ : Type) [Ord μ] : SetLike (Ordered.Set μ) μ where
  identity := fun _ => none
  members := fun s => s.toList
  assemble := fun _ s => s

namespace Resolver

variable {α μ : Type}

def unlessConflict (reason : Unresolved.Reason) : Resolver α := fun s =>
  if s.isConflict then .error ⟨s.location, s.size, reason⟩ else .ok s.first.value

def manual : Resolver α := unlessConflict .manual

def age (a b : Sibling α) : Ordering := (compare a.time b.time).then (compare a.tag b.tag)

/-- The later of two siblings, the second if neither is. -/
def later (a b : Sibling α) : Sibling α := if age a b = .gt then a else b

def lastWriterWins : Resolver α := fun s => .ok (s.members.tail.foldl later s.first).value

/-- The identity that all values with one share; two that differ are the error. -/
def commonIdentity (identity : α → Option String) :
    Option String → List α → Except (String × String) (Option String)
  | seen, [] => .ok seen
  | none, v :: vs => commonIdentity identity (identity v) vs
  | some seen, v :: vs =>
    match identity v with
    | none => commonIdentity identity (some seen) vs
    | some id =>
      if seen = id then commonIdentity identity (some seen) vs
      else if seen < id then .error (seen, id) else .error (id, seen)

/-- The union of all siblings. A member removed on one side and kept on another
comes back. -/
def union [Ord μ] [Std.TransOrd μ] (kind : SetLike α μ) : Resolver α := fun s =>
  if !s.isConflict then .ok s.first.value
  else
    match commonIdentity kind.identity none s.values with
    | .error (a, b) => .error ⟨s.location, s.size, .identities a b⟩
    | .ok identity => .ok (kind.assemble identity (.ofList (s.values.flatMap kind.members)))

end Resolver

inductive Strategy where
  | manual
  | lastWriterWins
  | union
  deriving Repr, DecidableEq, Inhabited

namespace Strategy

variable {α μ : Type}

/-- The strategy for values of any kind, which have no union. -/
def resolver : Strategy → Resolver α
  | manual => Resolver.manual
  | lastWriterWins => Resolver.lastWriterWins
  | union => Resolver.unlessConflict .notSetLike

def setResolver [Ord μ] [Std.TransOrd μ] (kind : SetLike α μ) : Strategy → Resolver α
  | union => Resolver.union kind
  | other => other.resolver

end Strategy

end SiblingStore
