import SiblingStore.Operation.Config
import SiblingStore.Operation.Error
import SiblingStore.Operation.Outcome
import SiblingStore.Simulation.Flight

/-!
# Operations under way

An operation makes attempts until one succeeds, fails for good or is the last
allowed. An attempt holds a connection and is cut off when its time is over, the
wait for the connection included; between attempts the operation rests without
one. Each step is what happens without waiting, so that operations which share a
pool or an engine can be interleaved in any order.
-/

namespace SiblingStore

inductive Goal where
  | fetch (location : Location)
  | store (location : Location) (value : Bytes)
  | delete (location : Location)
  | keys (bucket : String)
  deriving DecidableEq

namespace Goal

def kind : Goal → RequestKind
  | fetch _ => .get
  | store .. => .put
  | delete _ => .delete
  | keys _ => .listKeys

def counter : Goal → Counter
  | fetch _ => .fetches
  | store .. => .stores
  | delete _ => .deletes
  | keys _ => .keyListings

def target : Goal → Target
  | fetch l | store l _ | delete l => .key l
  | keys bucket => .bucket bucket

end Goal

inductive Call.Phase where
  | idle
  | ready
  | queued (ticket deadline : Nat)
  | working (flight : Flight) (deadline : Nat)
  | resting (wake : Nat)
  | ended (result : Except OperationError Reply)
  | dropped

structure Call where
  pool : Nat
  writer : ClientId
  goal : Goal
  config : OperationConfig
  /-- Attempts begun. -/
  attempts : Nat
  phase : Call.Phase

namespace Call

def start (pool : Nat) (writer : ClientId) (goal : Goal) (config : OperationConfig) : Call :=
  ⟨pool, writer, goal, config, 0, .idle⟩

def putRequest (c : Call) (l : Location) (value context : Bytes) : Request :=
  .put ⟨l, value, context, c.writer, c.config.quorum, c.config.returnBody⟩

/-- The request an attempt begins with. A store without context reads first. -/
def firstRequest (c : Call) : Request :=
  match c.goal with
  | .fetch l => .get l c.config.quorum
  | .store l value =>
    match c.config.context with
    | some context => c.putRequest l value context
    | none => .get l c.config.quorum
  | .delete l => .delete l c.config.quorum
  | .keys bucket => .listKeys bucket

/-- The request that follows a reply within the attempt: a store writes on top of what it read. -/
def nextRequest (c : Call) (reply : Reply) : Option Request :=
  match c.goal, reply with
  | .store l value, .fetched r => some (c.putRequest l value r.context)
  | _, _ => none

def finish (w : World) (c : Call) (result : Except OperationError Reply) : World × Call :=
  ({ w with metrics := w.metrics.observeLatency c.goal.kind.name 0 },
    { c with phase := .ended result })

def describe (c : Call) : String := c.goal.kind.name ++ " " ++ c.goal.target.path

/-- An attempt has ended and given its connection back. -/
def settle (w : World) (c : Call) (result : Except EngineError Reply) : World × Call :=
  match result with
  | .ok reply =>
    finish (w.tell [⟨.debug, c.describe ++ s!" succeeded on attempt {c.attempts}"⟩]) c (.ok reply)
  | .error e =>
    let w := { w with metrics := w.metrics.addFailedAttempts e.className 1 }
    match OperationState.pending.advance (.ofError e) c.attempts c.config.retries with
    | .retrying next =>
      let delay := c.config.backoff.delay c.attempts
      let w := w.tell [⟨.warn, c.describe ++ s!" attempt {c.attempts} failed: " ++ e.message
        ++ s!"; retrying (attempt {next}) in " ++ delay.text⟩]
      (w.count .retries, { c with phase := .resting (w.after delay.ceilMillis) })
    | _ =>
      if e.isTransient then
        finish (w.tell [⟨.debug, c.describe ++ s!" gave up after {c.attempts} attempts"⟩]) c
          (.error (.exhausted c.goal.kind c.goal.target c.attempts e))
      else
        finish (w.tell [⟨.debug, c.describe ++ " failed permanently: " ++ e.message⟩]) c
          (.error (.permanent c.goal.kind c.goal.target c.attempts e))

def release (w : World) (c : Call) : World := w.setPool c.pool (w.pool c.pool).release

def timeout (c : Call) : Except EngineError Reply := .error (.timeout c.config.attemptTimeout)

def proceed (w : World) (c : Call) (deadline : Nat) : Pool.Standing → World × Call
  | .refused => finish w c (.error .closed)
  | .held => (w, { c with phase := .working (.start c.firstRequest) deadline })
  | .waits ticket => (w, { c with phase := .queued ticket deadline })

/-- What happens next without waiting, if anything does. -/
def step (w : World) (c : Call) : Option (World × Call) :=
  match c.phase with
  | .idle => some (w.count c.goal.counter, { c with phase := .ready })
  | .ready =>
    let c := { c with attempts := c.attempts + 1 }
    let w := { w with metrics := w.metrics.addAttempts c.goal.kind.name 1 }
    let (standing, pool) := (w.pool c.pool).request
    some (proceed (w.setPool c.pool pool) c (w.after c.config.attemptTimeout.ceilMillis) standing)
  | .queued ticket deadline =>
    match (w.pool c.pool).claim ticket with
    | (.waits _, _) =>
      if deadline ≤ w.now then
        some (settle (w.setPool c.pool ((w.pool c.pool).leave ticket)) c c.timeout)
      else none
    | (standing, pool) => some (proceed (w.setPool c.pool pool) c deadline standing)
  | .working flight deadline =>
    match flight.step w with
    | .moves flight w => some (w, { c with phase := .working flight deadline })
    | .arrives (.error e) w => some (settle (release w c) c (.error e))
    | .arrives (.ok reply) w =>
      match c.nextRequest reply with
      | some r => some (w, { c with phase := .working (.start r) deadline })
      | none => some (settle (release w c) c (.ok reply))
    | .waits => if deadline ≤ w.now then some (settle (release w c) c c.timeout) else none
  | .resting wake => if wake ≤ w.now then some (w, { c with phase := .ready }) else none
  | .ended _ | .dropped => none

/-- The operation is given up: no further attempt starts, and what it holds goes back. -/
def drop (w : World) (c : Call) : World × Call :=
  let gone := { c with phase := .dropped }
  let timed := fun (w : World) =>
    ({ w with metrics := w.metrics.observeLatency c.goal.kind.name 0 }, gone)
  match c.phase with
  | .idle => (w, gone)
  | .ready | .resting _ => timed w
  | .queued ticket _ => timed (w.setPool c.pool ((w.pool c.pool).leave ticket))
  | .working .. => timed (release w c)
  | .ended _ | .dropped => (w, c)

def poll : Nat → World → Call → World × Call
  | 0, w, c => (w, c)
  | fuel + 1, w, c =>
    match c.step w with
    | none => (w, c)
    | some (w, c) => poll fuel w c

/-- More steps than the operation can take. -/
def budget (c : Call) : Nat := 12 * (c.config.retries + 2)

/-- When a waiting operation can go on, unless someone else's step lets it. -/
def wakes (c : Call) : Option Nat :=
  match c.phase with
  | .queued _ deadline => some deadline
  | .working flight deadline =>
    match flight.wakes with
    | some t => some (min t deadline)
    | none => some deadline
  | .resting wake => some wake
  | _ => none

end Call

end SiblingStore
