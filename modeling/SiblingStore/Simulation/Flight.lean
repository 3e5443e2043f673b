import SiblingStore.Simulation.World

/-!
# Requests under way

A request on its way to the engine and back. It is counted as it comes in, may be
held up, may be turned into an error, and reaches the engine in a single moment;
the reply may take time again.
-/

namespace SiblingStore

inductive Flight.Stage where
  | entering
  /-- Held up; `failing` was decided when it came in. -/
  | delayed (wake : Nat) (failing : Bool)
  | reaching (failing : Bool)
  | clear
  /-- Served; without a time the reply never comes. -/
  | answering (result : Except EngineError Reply) (wake : Option Nat)

structure Flight where
  request : Request
  stage : Flight.Stage

inductive Flight.Progress where
  | moves (f : Flight) (w : World)
  | arrives (result : Except EngineError Reply) (w : World)
  | waits

def Flight.Progress.isWaiting : Flight.Progress → Bool
  | .waits => true
  | .moves .. | .arrives .. => false

namespace Flight

def start (r : Request) : Flight := ⟨r, .entering⟩

/-- A request that goes past all injected faults. -/
def direct (r : Request) : Flight := ⟨r, .clear⟩

def due (wake : Option Nat) (now : Nat) : Bool := wake.any (· ≤ now)

def reach (f : Flight) (w : World) : Progress :=
  let (reply, w) := w.serve f.request
  if reply.delay = some 0 then .arrives reply.result w
  else .moves { f with stage := .answering reply.result (reply.delay.map w.after) } w

def step (f : Flight) (w : World) : Progress :=
  match f.stage with
  | .entering =>
    let w := { w with chaos := w.chaos.count f.request.kind }
    if w.chaos.latency = 0 then .moves { f with stage := .reaching w.chaos.failing } w
    else .moves { f with stage := .delayed (w.after w.chaos.latency) w.chaos.failing } w
  | .delayed wake failing =>
    if wake ≤ w.now then .moves { f with stage := .reaching failing } w else .waits
  | .reaching failing =>
    match w.chaos.fault f.request.kind failing with
    | (some e, chaos) => .arrives (.error e) { w with chaos }
    | (none, chaos) => f.reach { w with chaos }
  | .clear => f.reach w
  | .answering result wake => if due wake w.now then .arrives result w else .waits

def wakes (f : Flight) : Option Nat :=
  match f.stage with
  | .delayed wake _ => some wake
  | .answering _ wake => wake
  | .entering | .reaching _ | .clear => none

end Flight

end SiblingStore
