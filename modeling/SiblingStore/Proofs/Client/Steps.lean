import SiblingStore.Client.Call
import Mathlib.Tactic.SplitIfs

/-!
# Steps of an attempt

What a call does with the progress of its request: it goes on, it makes something of
what comes back, or it gives up when the time is over.
-/

namespace SiblingStore

namespace Call

variable {w : World} {c : Call}

theorem settle_phase (w : World) (c : Call) (phase : Phase) (result : Except EngineError Reply) :
    settle w { c with phase := phase } result = settle w c result := by
  unfold settle
  cases result <;> rfl

def receive (w : World) (c : Call) (deadline : Nat) : Except EngineError Reply → World × Call
  | .error e => settle (release w c) c (.error e)
  | .ok reply =>
    match c.nextRequest reply with
    | some r => (w, { c with phase := .working (.start r) deadline })
    | none => settle (release w c) c (.ok reply)

theorem receive_phase (w : World) (c : Call) (phase : Phase) (deadline : Nat)
    (result : Except EngineError Reply) :
    receive w { c with phase := phase } deadline result = receive w c deadline result := by
  cases result with
  | error e => exact settle_phase (release w c) c phase (.error e)
  | ok reply =>
      change (match c.nextRequest reply with
        | some r => (w, { c with phase := .working (.start r) deadline })
        | none => settle (release w c) { c with phase := phase } (.ok reply)) = _
      rw [settle_phase]
      rfl

variable {flight : Flight} {deadline : Nat}

theorem step_moves {w' : World} {flight' : Flight} (hphase : c.phase = .working flight deadline)
    (h : flight.step w = .moves flight' w') :
    c.step w = some (w', { c with phase := .working flight' deadline }) := by
  unfold step
  rw [hphase]
  dsimp only
  rw [h]

theorem step_arrives {w' : World} {result : Except EngineError Reply}
    (hphase : c.phase = .working flight deadline) (h : flight.step w = .arrives result w') :
    c.step w = some (receive w' c deadline result) := by
  unfold step receive
  rw [hphase]
  dsimp only
  rw [h]
  cases result with
  | error e => rfl
  | ok reply =>
      dsimp only
      cases c.nextRequest reply <;> rfl

theorem step_late (hphase : c.phase = .working flight deadline) (h : flight.step w = .waits)
    (hdeadline : deadline ≤ w.now) : c.step w = some (receive w c deadline c.timeout) := by
  unfold step
  rw [hphase]
  dsimp only
  rw [h]
  dsimp only
  rw [if_pos hdeadline]
  rfl

theorem step_waits (hphase : c.phase = .working flight deadline) (h : flight.step w = .waits)
    (hdeadline : w.now < deadline) : c.step w = none := by
  unfold step
  rw [hphase]
  dsimp only
  rw [h]
  dsimp only
  rw [if_neg (by omega)]

/-! ## What a step can do -/

/-- Whether a call has heard nothing from the engine that it goes on with. -/
def Unheard (c : Call) : Prop :=
  match c.phase with
  | .ended result => ∃ e, result = .error e
  | .working flight _ => flight = .start c.firstRequest
  | _ => True

/-- Settling an attempt changes nothing of a world but its metrics and what it tells. -/
theorem settle_fst (w : World) (c : Call) (result : Except EngineError Reply) :
    ∃ metrics events,
      (settle w c result).1 = { w with metrics := metrics, events := events } := by
  unfold settle
  cases result with
  | ok reply => exact ⟨_, _, rfl⟩
  | error e =>
      dsimp only
      split
      · exact ⟨_, _, rfl⟩
      · split_ifs
        · exact ⟨_, _, rfl⟩
        · exact ⟨_, _, rfl⟩

theorem settle_backend (w : World) (c : Call) (result : Except EngineError Reply) :
    (settle w c result).1.backend = w.backend := by
  obtain ⟨metrics, events, h⟩ := settle_fst w c result
  rw [h]

theorem unheard_settle (w : World) (c : Call) (e : EngineError) :
    (settle w c (.error e)).2.Unheard := by
  unfold settle
  dsimp only
  split
  · trivial
  · split_ifs
    · exact ⟨_, rfl⟩
    · exact ⟨_, rfl⟩

theorem proceed_backend (w : World) (c : Call) (deadline : Nat) (standing : Pool.Standing) :
    (c.proceed w deadline standing).1.backend = w.backend := by
  cases standing <;> rfl

theorem unheard_proceed (w : World) (c : Call) (deadline : Nat) (standing : Pool.Standing) :
    (c.proceed w deadline standing).2.Unheard := by
  cases standing with
  | held => rfl
  | waits ticket => trivial
  | refused => exact ⟨_, rfl⟩

theorem receive_backend (w : World) (c : Call) (deadline : Nat)
    (result : Except EngineError Reply) : (receive w c deadline result).1.backend = w.backend := by
  unfold receive
  cases result with
  | error e => exact settle_backend (release w c) c (.error e)
  | ok reply =>
      dsimp only
      split
      · rfl
      · exact settle_backend (release w c) c (.ok reply)

theorem step_unheard {w' : World} {c' : Call}
    (hidle : ∀ flight deadline, c.phase ≠ .working flight deadline)
    (h : c.step w = some (w', c')) : w'.backend = w.backend ∧ c'.Unheard := by
  have hproceed {w₁ : World} {c₁ : Call} {deadline : Nat} {standing : Pool.Standing}
      (heq : proceed w₁ c₁ deadline standing = (w', c')) (hbackend : w₁.backend = w.backend) :
      w'.backend = w.backend ∧ c'.Unheard := by
    have hkept := proceed_backend w₁ c₁ deadline standing
    have hunheard := unheard_proceed w₁ c₁ deadline standing
    rw [heq] at hkept hunheard
    exact ⟨hkept.trans hbackend, hunheard⟩
  cases hphase : c.phase with
  | idle =>
      simp only [step, hphase] at h
      cases h
      exact ⟨rfl, trivial⟩
  | ready =>
      simp only [step, hphase] at h
      injection h with h
      exact hproceed h rfl
  | queued ticket deadline =>
      simp only [step, hphase] at h
      split at h
      · split_ifs at h
        injection h with h
        have hkept := settle_backend (w.setPool c.pool ((w.pool c.pool).leave ticket)) c c.timeout
        have hunheard := unheard_settle (w.setPool c.pool ((w.pool c.pool).leave ticket)) c
          (.timeout c.config.attemptTimeout)
        rw [timeout] at h hkept
        rw [h] at hkept hunheard
        exact ⟨hkept, hunheard⟩
      · injection h with h
        exact hproceed h rfl
  | working flight deadline => exact absurd hphase (hidle flight deadline)
  | resting wake =>
      simp only [step, hphase] at h
      split_ifs at h
      cases h
      exact ⟨rfl, trivial⟩
  | ended _ | dropped =>
      simp only [step, hphase] at h
      cases h

end Call

/-! ## What requests leave alone -/

namespace Flight

/-- Whether the world after a request's step has the pools and the metrics it had before. -/
def Progress.Frames (w : World) : Progress → Prop
  | .moves _ w' | .arrives _ w' => w'.pools = w.pools ∧ w'.metrics = w.metrics
  | .waits => True

theorem frames_reach (f : Flight) {w w' : World} (hpools : w'.pools = w.pools)
    (hmetrics : w'.metrics = w.metrics) : (f.reach w').Frames w := by
  unfold reach
  dsimp only
  split_ifs
  · exact ⟨hpools, hmetrics⟩
  · exact ⟨hpools, hmetrics⟩

theorem frames_step (f : Flight) (w : World) : (f.step w).Frames w := by
  unfold step
  split
  · dsimp only
    split_ifs
    · exact ⟨rfl, rfl⟩
    · exact ⟨rfl, rfl⟩
  · split_ifs
    · exact ⟨rfl, rfl⟩
    · trivial
  · split
    · exact ⟨rfl, rfl⟩
    · exact frames_reach f rfl rfl
  · exact frames_reach f rfl rfl
  · split_ifs
    · exact ⟨rfl, rfl⟩
    · trivial

end Flight

namespace Call

variable {w : World} {c : Call}

/-! ## One kind of step after the other -/

/-- What is received leads to another request within the attempt, or else settles it. -/
theorem receive_cases (w : World) (c : Call) (deadline : Nat)
    (result : Except EngineError Reply) :
    (∃ next,
      receive w c deadline result = (w, { c with phase := .working (.start next) deadline })) ∨
      receive w c deadline result = settle (release w c) c result := by
  cases result with
  | error e => exact .inr rfl
  | ok reply =>
      unfold receive
      dsimp only
      cases c.nextRequest reply with
      | none => exact .inr rfl
      | some next => exact .inl ⟨next, rfl⟩

/-- The kinds of step, each with when a call takes it and what it leads to. -/
inductive Takes (w : World) (c : Call) : World × Call → Prop where
  | begin : c.phase = .idle → Takes w c (w.count c.goal.counter, { c with phase := .ready })
  | request : c.phase = .ready →
      Takes w c (proceed
        (World.setPool { w with metrics := w.metrics.addAttempts c.goal.kind.name 1 } c.pool
          (w.pool c.pool).request.2)
        { c with attempts := c.attempts + 1 } (w.after c.config.attemptTimeout.ceilMillis)
        (w.pool c.pool).request.1)
  | claim {ticket deadline : Nat} : c.phase = .queued ticket deadline →
      (∀ t, ((w.pool c.pool).claim ticket).1 ≠ .waits t) →
      Takes w c (proceed (w.setPool c.pool ((w.pool c.pool).claim ticket).2) c deadline
        ((w.pool c.pool).claim ticket).1)
  | leave {ticket deadline : Nat} : c.phase = .queued ticket deadline → deadline ≤ w.now →
      Takes w c (settle (w.setPool c.pool ((w.pool c.pool).leave ticket)) c c.timeout)
  | fly {flight flight' : Flight} {deadline : Nat} {w' : World} :
      c.phase = .working flight deadline → flight.step w = .moves flight' w' →
      Takes w c (w', { c with phase := .working flight' deadline })
  | receive {flight : Flight} {deadline : Nat} {result : Except EngineError Reply} {w' : World} :
      c.phase = .working flight deadline → flight.step w = .arrives result w' →
      Takes w c (receive w' c deadline result)
  | late {flight : Flight} {deadline : Nat} : c.phase = .working flight deadline →
      flight.step w = .waits → deadline ≤ w.now →
      Takes w c (settle (release w c) c c.timeout)
  | wake {time : Nat} : c.phase = .resting time → time ≤ w.now →
      Takes w c (w, { c with phase := .ready })

theorem takes_of_step {p : World × Call} (h : c.step w = some p) : c.Takes w p := by
  cases hphase : c.phase with
  | idle =>
      simp only [step, hphase] at h
      cases h
      exact .begin hphase
  | ready =>
      simp only [step, hphase] at h
      cases h
      have htakes := Takes.request (w := w) hphase
      rw [hphase] at htakes
      exact htakes
  | queued ticket deadline =>
      simp only [step, hphase] at h
      split at h
      · split_ifs at h with hdeadline
        cases h
        exact .leave hphase hdeadline
      · rename_i standing pool hwaits hclaim
        cases h
        have htakes := Takes.claim (w := w) hphase (by
          rw [hclaim]
          exact hwaits)
        rw [hclaim] at htakes
        exact htakes
  | working flight deadline =>
      cases hstep : flight.step w with
      | moves flight' w' =>
          rw [step_moves hphase hstep] at h
          cases h
          exact .fly hphase hstep
      | arrives result w' =>
          rw [step_arrives hphase hstep] at h
          cases h
          exact .receive hphase hstep
      | waits =>
          by_cases hdeadline : deadline ≤ w.now
          · rw [step_late hphase hstep hdeadline] at h
            cases h
            exact .late hphase hstep hdeadline
          · rw [step_waits hphase hstep (by omega)] at h
            cases h
  | resting time =>
      simp only [step, hphase] at h
      split_ifs at h with htime
      cases h
      exact .wake hphase htime
  | ended _ | dropped =>
      simp only [step, hphase] at h
      cases h

end Call

end SiblingStore
