import SiblingStore.Metrics.Basic
import Mathlib.Tactic.Common

/-!
# Totals of the metrics

A labelled counter summed over its labels, and three differences of totals that say how much
the metrics have yet to see: attempts announced and not made, failures that led to no retry, and
siblings observed without anything said of their conflict. Each way of counting moves them by
one at most.
-/

namespace SiblingStore

namespace Ordered.Map

variable {κ : Type} [Ord κ]

def total (m : Map κ Nat) : Nat := m.toList.foldr (fun p n => p.2 + n) 0

theorem foldr_place (k : κ) (n : Nat) (l : List (κ × Nat)) :
    (place k (fun old => old.getD 0 + n) l).foldr (fun p n => p.2 + n) 0 =
      l.foldr (fun p n => p.2 + n) 0 + n := by
  induction l with
  | nil => simp [place]
  | cons p l ih =>
      obtain ⟨k', v⟩ := p
      rw [place]
      split
      · simp
        omega
      · simp
        omega
      · rw [List.foldr_cons, List.foldr_cons, ih]
        omega

/-- What is added to the value of one key is added to the total. -/
theorem total_alter [Std.TransOrd κ] (m : Map κ Nat) (k : κ) (n : Nat) :
    (m.alter k fun old => old.getD 0 + n).total = m.total + n :=
  foldr_place k n m.toList

end Ordered.Map

namespace Counter

/-- How many attempts a count announces. -/
def pends : Counter → Int
  | fetches | stores | deletes | keyListings | retries => 1
  | siblingsObserved | conflictsResolved | conflictsUnresolved | identityDisagreements => 0

/-- What a count adds to the failed attempts that led to no retry. -/
def loses : Counter → Int
  | retries => -1
  | fetches | stores | deletes | keyListings | siblingsObserved | conflictsResolved
  | conflictsUnresolved | identityDisagreements => 0

/-- What a count adds to the conflicts of which nothing has been said. -/
def presents : Counter → Int
  | siblingsObserved => 1
  | conflictsResolved | conflictsUnresolved => -1
  | fetches | stores | deletes | keyListings | retries | identityDisagreements => 0

def sum (f : Counter → Int) (cs : List Counter) : Int := cs.foldr (fun c n => f c + n) 0

end Counter

namespace Metrics

def operations (m : Metrics) : Nat := m.fetches + m.stores + m.deletes + m.keyListings

def attemptsTotal (m : Metrics) : Nat := m.attempts.total

def failedAttemptsTotal (m : Metrics) : Nat := m.failedAttempts.total

/-- Attempts that an operation or a retry has announced and that have not been made. -/
def pending (m : Metrics) : Int := m.operations + m.retries - m.attemptsTotal

/-- Failed attempts after which nobody tried again. -/
def lost (m : Metrics) : Int := m.failedAttemptsTotal - m.retries

/-- Conflicts observed that have been neither resolved nor left unresolved. -/
def presented (m : Metrics) : Int :=
  m.siblingsObserved - m.conflictsResolved - m.conflictsUnresolved

variable (m : Metrics)

theorem pending_addAttempts (kind : String) :
    (m.addAttempts kind 1).pending = m.pending - 1 := by
  have htotal : (m.addAttempts kind 1).attemptsTotal = m.attemptsTotal + 1 :=
    Ordered.Map.total_alter m.attempts kind 1
  unfold pending
  rw [htotal]
  show ((m.operations : Int) + m.retries - ((m.attemptsTotal + 1 : Nat) : Int)) = _
  push_cast
  omega

theorem lost_addFailedAttempts (className : String) :
    (m.addFailedAttempts className 1).lost = m.lost + 1 := by
  have htotal : (m.addFailedAttempts className 1).failedAttemptsTotal =
      m.failedAttemptsTotal + 1 :=
    Ordered.Map.total_alter m.failedAttempts className 1
  unfold lost
  rw [htotal]
  show (((m.failedAttemptsTotal + 1 : Nat) : Int) - m.retries) = _
  push_cast
  omega

theorem pending_count (c : Counter) : (m.count c).pending = m.pending + c.pends := by
  cases c <;>
    simp only [count, add, pending, operations, attemptsTotal, Counter.pends] <;> omega

theorem lost_count (c : Counter) : (m.count c).lost = m.lost + c.loses := by
  cases c <;> simp only [count, add, lost, failedAttemptsTotal, Counter.loses] <;> omega

theorem presented_count (c : Counter) :
    (m.count c).presented = m.presented + c.presents := by
  cases c <;> simp only [count, add, presented, Counter.presents] <;> omega

theorem foldl_count {f : Metrics → Int} {g : Counter → Int}
    (h : ∀ m c, f (m.count c) = f m + g c) (cs : List Counter) :
    f (cs.foldl count m) = f m + Counter.sum g cs := by
  induction cs generalizing m with
  | nil => exact (Int.add_zero _).symm
  | cons c cs ih =>
      rw [List.foldl_cons, ih, h]
      show f m + g c + Counter.sum g cs = f m + (g c + Counter.sum g cs)
      omega

/-- Whether the first two differences move by so much and the third stays. -/
structure Moves (m m' : Metrics) (pends loses : Int) : Prop where
  pending : m'.pending = m.pending + pends
  lost : m'.lost = m.lost + loses
  presented : m'.presented = m.presented

variable {m}
variable {m' m'' : Metrics} {pends pends' loses loses' : Int}

theorem moves_refl (m : Metrics) : m.Moves m 0 0 :=
  ⟨(Int.add_zero _).symm, (Int.add_zero _).symm, rfl⟩

theorem Moves.trans (h : m.Moves m' pends loses) (h' : m'.Moves m'' pends' loses') :
    m.Moves m'' (pends + pends') (loses + loses') where
  pending := by
    rw [h'.pending, h.pending]
    omega
  lost := by
    rw [h'.lost, h.lost]
    omega
  presented := h'.presented.trans h.presented

theorem moves_addAttempts (m : Metrics) (kind : String) : m.Moves (m.addAttempts kind 1) (-1) 0 :=
  ⟨m.pending_addAttempts kind, (Int.add_zero _).symm, rfl⟩

theorem moves_addFailedAttempts (m : Metrics) (className : String) :
    m.Moves (m.addFailedAttempts className 1) 0 1 :=
  ⟨(Int.add_zero _).symm, m.lost_addFailedAttempts className, rfl⟩

theorem moves_observeLatency (m : Metrics) (kind : String) (seconds : Float) :
    m.Moves (m.observeLatency kind seconds) 0 0 :=
  ⟨(Int.add_zero _).symm, (Int.add_zero _).symm, rfl⟩

theorem moves_count (m : Metrics) {c : Counter} (h : c.presents = 0) :
    m.Moves (m.count c) c.pends c.loses where
  pending := m.pending_count c
  lost := m.lost_count c
  presented := by
    rw [presented_count, h, Int.add_zero]

end Metrics

end SiblingStore
