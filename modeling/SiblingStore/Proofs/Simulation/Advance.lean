import SiblingStore.Proofs.Simulation.Activity

/-!
# Calls that come to an end

A call that runs alone takes a step or, when there is none, waits until it can go on.
A run has room for as many of these as the call's budget, so it ends where they lead.
-/

namespace SiblingStore

namespace Call

/-! ## What steps leave alone -/

theorem settle_snd (w : World) (c : Call) (result : Except EngineError Reply) :
    (c.settle w result).2 = { c with phase := (c.settle w result).2.phase } := by
  unfold settle
  cases result with
  | ok reply => rfl
  | error e =>
      dsimp only
      split
      · rfl
      · split_ifs <;> rfl

theorem proceed_snd (w : World) (c : Call) (deadline : Nat) (standing : Pool.Standing) :
    (c.proceed w deadline standing).2 =
      { c with phase := (c.proceed w deadline standing).2.phase } := by
  cases standing <;> rfl

theorem eq_of_step {w w' : World} {c c' : Call} (h : c.step w = some (w', c')) :
    c' = { c with attempts := c'.attempts, phase := c'.phase } := by
  have hsettle : ∀ w result, c.settle w result = (w', c') →
      c' = { c with attempts := c'.attempts, phase := c'.phase } := by
    intro w result heq
    have hsnd := settle_snd w c result
    rw [heq] at hsnd
    change c' = _ at hsnd
    rw [hsnd]
  have hproceed : ∀ w n deadline standing,
      proceed w { c with attempts := n } deadline standing = (w', c') →
      c' = { c with attempts := c'.attempts, phase := c'.phase } := by
    intro w n deadline standing heq
    have hsnd := proceed_snd w { c with attempts := n } deadline standing
    rw [heq] at hsnd
    change c' = _ at hsnd
    rw [hsnd]
  unfold step at h
  split at h
  · cases h; rfl
  · injection h with h
    exact hproceed _ _ _ _ h
  · split at h
    · split_ifs at h
      injection h with h
      exact hsettle _ _ h
    · injection h with h
      exact hproceed _ c.attempts _ _ h
  · split at h
    · cases h; rfl
    · injection h with h
      exact hsettle _ _ h
    · split at h
      · cases h; rfl
      · injection h with h
        exact hsettle _ _ h
    · split_ifs at h
      injection h with h
      exact hsettle _ _ h
  · split_ifs at h
    cases h; rfl
  · cases h
  · cases h

theorem budget_of_step {w w' : World} {c c' : Call} (h : c.step w = some (w', c')) :
    c'.budget = c.budget := by
  rw [eq_of_step h]
  rfl

theorem budget_poll (fuel : Nat) (w : World) (c : Call) :
    (c.poll fuel w).2.budget = c.budget := by
  induction fuel generalizing w c with
  | zero => rfl
  | succ fuel ih =>
      rw [poll]
      split
      · rfl
      · rename_i w' c' hstep
        rw [ih, budget_of_step hstep]

theorem step_ended {w : World} {c : Call} {result : Except OperationError Reply}
    (h : c.phase = .ended result) : c.step w = none := by
  unfold step
  rw [h]

/-! ## Steps and waits -/

inductive Advances : Nat → World → Call → World → Call → Prop where
  | refl (w : World) (c : Call) : Advances 0 w c w c
  | step {n : Nat} {w w₁ w' : World} {c c₁ c' : Call} : c.step w = some (w₁, c₁) →
      Advances n w₁ c₁ w' c' → Advances (n + 1) w c w' c'
  | wait {n : Nat} {w w' : World} {c c' : Call} {time : Nat} : c.step w = none →
      c.wakes = some time → Advances n { w with now := max w.now time } c w' c' →
      Advances (n + 1) w c w' c'

variable {m n : Nat} {w w' : World} {c c' : Call}

theorem Advances.trans {w'' : World} {c'' : Call} (h : Advances m w c w' c')
    (h' : Advances n w' c' w'' c'') : Advances (m + n) w c w'' c'' := by
  induction h with
  | refl => rwa [Nat.zero_add]
  | step hstep _ ih =>
      rw [Nat.add_right_comm]
      exact .step hstep (ih h')
  | wait hstep hwakes _ ih =>
      rw [Nat.add_right_comm]
      exact .wait hstep hwakes (ih h')

/-- Whether at most so many steps and waits lead a call that runs alone to a target. -/
def Leads (bound : Nat) (w : World) (c : Call) (target : World × Call) : Prop :=
  ∃ n ≤ bound, Advances n w c target.1 target.2

theorem leads_of_step {target : World × Call} (h : c.step w = some target) :
    Leads 1 w c target :=
  ⟨1, Nat.le_refl 1, .step h (.refl ..)⟩

/-- Time passes until a call can go on. -/
theorem leads_to {time : Nat} (hwakes : c.wakes = some time) (hnow : w.now ≤ time)
    (hnone : w.now < time → c.step w = none) : Leads 1 w c ({ w with now := time }, c) := by
  by_cases htime : w.now = time
  · subst htime
    exact ⟨0, Nat.zero_le 1, .refl w c⟩
  · refine ⟨1, Nat.le_refl 1, .wait (hnone (by omega)) hwakes ?_⟩
    rw [Nat.max_eq_right hnow]
    exact .refl _ c

theorem Leads.trans {target target' : World × Call} (h : Leads m w c target)
    (h' : Leads n target.1 target.2 target') : Leads (m + n) w c target' := by
  obtain ⟨k, hk, hadvances⟩ := h
  obtain ⟨k', hk', hadvances'⟩ := h'
  exact ⟨k + k', by omega, hadvances.trans hadvances'⟩

theorem Leads.mono {target : World × Call} (h : Leads m w c target) (hmn : m ≤ n) :
    Leads n w c target := by
  obtain ⟨k, hk, hadvances⟩ := h
  exact ⟨k, by omega, hadvances⟩

theorem poll_of_step_none (h : c.step w = none) (fuel : Nat) : c.poll fuel w = (w, c) := by
  cases fuel with
  | zero => rfl
  | succ fuel => rw [poll, h]

/-- A turn takes a call some way towards its end, if it can take a step at all. -/
theorem Advances.poll {result : Except OperationError Reply} (h : Advances n w c w' c')
    (hended : c'.phase = .ended result) {fuel : Nat} (hfuel : n ≤ fuel) :
    ∃ k ≤ n, Advances k (c.poll fuel w).1 (c.poll fuel w).2 w' c' ∧
      (c.step w ≠ none → k < n) := by
  induction h generalizing fuel with
  | refl w c =>
      rw [poll_of_step_none (step_ended hended)]
      exact ⟨0, Nat.le_refl _, .refl w c, fun hstep => absurd (step_ended hended) hstep⟩
  | @step n w w₁ w' c c₁ c' hstep _ ih =>
      cases fuel with
      | zero => omega
      | succ fuel =>
          obtain ⟨k, hk, hrest, -⟩ := ih hended (Nat.le_of_succ_le_succ hfuel)
          rw [Call.poll, hstep]
          exact ⟨k, by omega, hrest, fun _ => by omega⟩
  | @wait n w w' c c' time hstep hwakes hrest ih =>
      -- a turn ends where the call would have to wait
      rw [poll_of_step_none hstep]
      exact ⟨n + 1, Nat.le_refl _, .wait hstep hwakes hrest, fun h => absurd hstep h⟩

end Call

namespace Activity

open Call (Advances Leads)

variable {ρ : Type} {n : Nat} {w w' : World} {c c' : Call}
  {result : Except OperationError Reply}

theorem concluded_of_ended (conclude : Except OperationError Reply → World → ρ × World)
    (h : c.phase = .ended result) :
    concluded conclude w c = ((conclude result w).2, .ended (conclude result w).1) := by
  unfold concluded
  rw [h]

theorem concluded_of_not_ended (conclude : Except OperationError Reply → World → ρ × World)
    (h : ∀ result, c.phase ≠ .ended result) : concluded conclude w c = (w, .call c conclude) := by
  unfold concluded
  split
  · rename_i result hphase
    exact absurd hphase (h result)
  · rfl

theorem go_of_advances (conclude : Except OperationError Reply → World → ρ × World)
    (h : Advances n w c w' c') (hended : c'.phase = .ended result) {fuel : Nat}
    (hfuel : n ≤ fuel) (hbudget : n ≤ c.budget) :
    go fuel (concluded conclude w c).1 (concluded conclude w c).2 = concluded conclude w' c' := by
  -- a turn takes several steps at once, so the induction is on the fuel and not on the steps
  induction fuel generalizing n w c with
  | zero =>
      obtain rfl : n = 0 := by omega
      cases h
      rfl
  | succ fuel ih =>
      cases h with
      | refl =>
          rw [concluded_of_ended conclude hended]
          exact go_ended ..
      | @step n _ w₁ _ _ c₁ _ hstep hrest =>
          have hnot : ∀ result, c.phase ≠ .ended result := by
            intro result hphase
            rw [Call.step_ended hphase] at hstep
            cases hstep
          obtain ⟨k, -, hpoll, hk⟩ := (Advances.step hstep hrest).poll hended hbudget
          have hlt : k < n + 1 := hk (by simp [hstep])
          rw [concluded_of_not_ended conclude hnot]
          simp only [go, isStuck, hstep, Option.isNone_some, Bool.false_eq_true, if_false,
            poll_call]
          exact ih hpoll (by omega) (by rw [Call.budget_poll]; omega)
      | @wait n _ _ _ _ time hstep hwakes hrest =>
          have hnot : ∀ result, c.phase ≠ .ended result := by
            intro result hphase
            simp [Call.wakes, hphase] at hwakes
          have hgo := ih hrest (by omega) (by omega)
          rw [concluded_of_not_ended conclude hnot] at hgo ⊢
          simp only [go, isStuck, hstep, Option.isNone_none, if_true, wakes, hwakes]
          exact hgo

/-- A run of a call ends as its steps and waits lead it to, if they are within its budget. -/
theorem run_of_leads (conclude : Except OperationError Reply → World → ρ × World)
    (h : Leads c.budget w c (w', c')) (hended : c'.phase = .ended result) :
    run w (.call c conclude) = (some (conclude result w').1, (conclude result w').2) := by
  obtain ⟨n, hbudget, hadvances⟩ := h
  obtain ⟨k, hk, hpoll, -⟩ := hadvances.poll hended hbudget
  have hlimit : k ≤ 2 * (concluded conclude (c.poll c.budget w).1
      (c.poll c.budget w).2).2.budget + 2 := by
    by_cases hphase : ∃ result, (c.poll c.budget w).2.phase = .ended result
    · obtain ⟨result, hphase⟩ := hphase
      cases hpoll with
      | refl => omega
      | step hstep _ =>
          rw [Call.step_ended hphase] at hstep
          cases hstep
      | wait _ hwakes _ => simp [Call.wakes, hphase] at hwakes
    · rw [concluded_of_not_ended conclude fun result h => hphase ⟨result, h⟩]
      rw [budget, Call.budget_poll]
      omega
  have hgo := go_of_advances conclude hpoll hended hlimit (by rw [Call.budget_poll]; omega)
  unfold run
  simp only [poll_call, hgo, concluded_of_ended conclude hended, result?]

end Activity

end SiblingStore
