import SiblingStore.Client.Basic

/-!
# Activities

What a session does one after another, at once, or until a deadline. All activities
share a world and take turns: at one moment each goes as far as it can without
waiting, in the order in which they stand, and time passes only when all of them
wait. What finishes at its deadline has finished in time.
-/

namespace SiblingStore

inductive Activity (ρ : Type) where
  | ended (result : ρ)
  /-- Made from the world as it is when its turn first comes. -/
  | prepare (build : World → Activity ρ)
  | act (f : World → ρ × World)
  | call (c : Call) (conclude : Except OperationError Reply → World → ρ × World)
  /-- A single request, without the client's attempts. -/
  | ask (f : Flight) (conclude : Except EngineError Reply → World → ρ × World)
  | pause (wake : Nat) (result : ρ)
  | both (first second : Activity ρ) (join : ρ → ρ → ρ)
  /-- Dropped when it has not ended by the deadline. -/
  | within (deadline : Nat) (activity : Activity ρ) (late : ρ)

def Pending.activity {α ρ : Type} (p : Pending α)
    (answer : Except OperationError α → World → ρ × World) : Activity ρ :=
  match p with
  | refused e => .act (answer (.error e))
  | calls c conclude =>
    .call c fun r w =>
      let (a, w) := outcome conclude r w
      answer a w

namespace Activity

variable {ρ : Type}

/-- Activities at once, with their answers put together from the last to the first. -/
def all (empty : ρ) (join : ρ → ρ → ρ) (parts : List (Activity ρ)) : Activity ρ :=
  parts.foldr (fun t rest => .both t rest join) (.ended empty)

/-- A request goes as far as it can; four steps take it past every stage. -/
def fly : Nat → World → Flight → World × Flight × Option (Except EngineError Reply)
  | 0, w, f => (w, f, none)
  | fuel + 1, w, f =>
    match f.step w with
    | .moves f w => fly fuel w f
    | .arrives r w => (w, f, some r)
    | .waits => (w, f, none)

def drop (w : World) : Activity ρ → World
  | call c _ => (c.drop w).1
  | both a b _ => b.drop (a.drop w)
  | within _ t _ => t.drop w
  | ended _ | prepare _ | act _ | ask .. | pause .. => w

def poll (w : World) : Activity ρ → World × Activity ρ
  | ended r => (w, ended r)
  | prepare build => (build w).poll w
  | act f =>
    let (r, w) := f w
    (w, ended r)
  | call c conclude =>
    let (w, c) := c.poll c.budget w
    match c.phase with
    | .ended result =>
      let (r, w) := conclude result w
      (w, ended r)
    | _ => (w, call c conclude)
  | ask f conclude =>
    match fly 4 w f with
    | (w, _, some result) =>
      let (r, w) := conclude result w
      (w, ended r)
    | (w, f, none) => (w, ask f conclude)
  | pause wake r => (w, if wake ≤ w.now then ended r else pause wake r)
  | both a b join =>
    let (w, a) := a.poll w
    let (w, b) := b.poll w
    (w, match a, b with
      | ended x, ended y => ended (join x y)
      | a, b => both a b join)
  | within deadline t late =>
    match t.poll w with
    | (w, ended r) => (w, ended r)
    | (w, t) =>
      if deadline ≤ w.now then (t.drop w, ended late) else (w, within deadline t late)

def isStuck (w : World) : Activity ρ → Bool
  | ended _ => true
  | prepare _ | act _ => false
  | call c _ => (c.step w).isNone
  | ask f _ => (f.step w).isWaiting
  | pause wake _ => w.now < wake
  | both a b _ => a.isStuck w && b.isStuck w
  | within deadline t _ => w.now < deadline && t.isStuck w

def earlier : Option Nat → Option Nat → Option Nat
  | some s, some t => some (min s t)
  | some s, none => some s
  | none, t => t

def wakes : Activity ρ → Option Nat
  | call c _ => c.wakes
  | ask f _ => f.wakes
  | pause wake _ => some wake
  | both a b _ => earlier a.wakes b.wakes
  | within deadline t _ => earlier t.wakes (some deadline)
  | ended _ | prepare _ | act _ => none

def budget : Activity ρ → Nat
  | call c _ => c.budget
  | ask .. => 4
  | both a b _ => a.budget + b.budget + 1
  | within _ t _ => t.budget + 1
  | ended _ | prepare _ | act _ | pause .. => 1

def result? : Activity ρ → Option ρ
  | ended r => some r
  | _ => none

/-- Gives turns until the activity has ended; when it is stuck, time passes. -/
def go : Nat → World → Activity ρ → World × Activity ρ
  | 0, w, t => (w, t)
  | fuel + 1, w, t =>
    if t.isStuck w then
      match t.wakes with
      | none => (w, t)
      | some time => go fuel { w with now := max w.now time } t
    else
      let (w, t) := t.poll w
      go fuel w t

/-- Runs an activity to its end; one that waits for ever has no answer. -/
def run (w : World) (t : Activity ρ) : Option ρ × World :=
  let (w, t) := t.poll w
  let (w, t) := go (2 * t.budget + 2) w t
  (t.result?, w)

end Activity

end SiblingStore
