/-!
# Pools of connections

A pool lends a fixed number of permits, one for each attempt under way. Who
finds none free waits in line: a permit that comes back goes to the first in the
line, who takes it up the next time it looks. Closing the pool turns everyone
away who does not hold a permit yet.
-/

namespace SiblingStore

structure Pool where
  size : Nat
  free : Nat
  /-- The tickets of those who wait, first come first. -/
  waiting : List Nat
  /-- The tickets a permit has been set aside for. -/
  granted : List Nat
  nextTicket : Nat
  closed : Bool
  deriving Repr, DecidableEq

inductive Pool.Standing where
  | held
  | waits (ticket : Nat)
  | refused
  deriving Repr, DecidableEq

namespace Pool

/-- A pool of `n` permits, or of one. -/
def ofSize (n : Nat) : Pool := ⟨max n 1, max n 1, [], [], 0, false⟩

def standard : Pool := ofSize 16

instance : Inhabited Pool := ⟨standard⟩

/-- Permits that nobody holds and nobody has been promised. -/
def available (p : Pool) : Nat := p.free

def release (p : Pool) : Pool :=
  match p.waiting with
  | [] => { p with free := p.free + 1 }
  | t :: ts => { p with waiting := ts, granted := p.granted ++ [t] }

def request (p : Pool) : Standing × Pool :=
  if p.closed then (.refused, p)
  else if 0 < p.free then (.held, { p with free := p.free - 1 })
  else (.waits p.nextTicket,
    { p with waiting := p.waiting ++ [p.nextTicket], nextTicket := p.nextTicket + 1 })

/-- Gives up a place in the line, or the permit that was set aside. -/
def leave (p : Pool) (ticket : Nat) : Pool :=
  if ticket ∈ p.granted then release { p with granted := p.granted.erase ticket }
  else { p with waiting := p.waiting.erase ticket }

def claim (p : Pool) (ticket : Nat) : Standing × Pool :=
  if p.closed then (.refused, p.leave ticket)
  else if ticket ∈ p.granted then (.held, { p with granted := p.granted.erase ticket })
  else (.waits ticket, p)

/-- No more permits are lent; those already out stay valid. -/
def close (p : Pool) : Pool := { p with closed := true, waiting := [] }

end Pool

end SiblingStore
