import SiblingStore.Duration

/-!
# Backoff

How long an operation rests before it tries again.
-/

namespace SiblingStore

inductive Backoff where
  | none
  | fixed (delay : Duration)
  /-- Starts at `base`, doubles from retry to retry and never exceeds `limit`. -/
  | exponential (base limit : Duration)
  deriving DecidableEq

namespace Backoff

def standard : Backoff := exponential (.ofMillis 50) (.ofMillis 2000)

instance : Inhabited Backoff := ⟨standard⟩

/-- The rest before retry number `retry`, counted from one. The base is doubled
sixteen times at most. -/
def delay (b : Backoff) (retry : Nat) : Duration :=
  match b with
  | none => .zero
  | fixed delay => delay
  | exponential base limit => (base.scale (Nat.pow 2 (Nat.min (retry - 1) 16))).min limit

end Backoff

end SiblingStore
