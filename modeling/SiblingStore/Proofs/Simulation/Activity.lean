import SiblingStore.Simulation.Activity
import Mathlib.Tactic.Common

/-!
# Activities of one call

An operation that runs alone is its call, followed by what is made of the call's
result. The call takes steps and lets time pass in between; what neither changes
holds when the run is over.
-/

namespace SiblingStore

structure Call.Keeps (P : World → Call → Prop) : Prop where
  step {w w' : World} {c c' : Call} : P w c → c.step w = some (w', c') → P w' c'
  pass {w : World} {c : Call} (time : Nat) : P w c → P { w with now := time } c

theorem Call.Keeps.poll {P : World → Call → Prop} (hkeeps : Keeps P) {w : World} {c : Call}
    (h : P w c) (fuel : Nat) : P (c.poll fuel w).1 (c.poll fuel w).2 := by
  induction fuel generalizing w c with
  | zero => exact h
  | succ fuel ih =>
      rw [Call.poll]
      split
      · exact h
      · rename_i w' c' hstep
        exact ih (hkeeps.step h hstep)

namespace Activity

variable {ρ : Type}

def concluded (conclude : Except OperationError Reply → World → ρ × World) (w : World)
    (c : Call) : World × Activity ρ :=
  match c.phase with
  | .ended result => ((conclude result w).2, .ended (conclude result w).1)
  | _ => (w, .call c conclude)

theorem poll_call (conclude : Except OperationError Reply → World → ρ × World) (w : World)
    (c : Call) :
    poll w (.call c conclude) =
      concluded conclude (c.poll c.budget w).1 (c.poll c.budget w).2 := by
  rw [poll]
  obtain ⟨w', c'⟩ := c.poll c.budget w
  cases hphase : c'.phase <;> simp only [concluded, hphase]

theorem budget_concluded (w : World) (c : Call) :
    ∃ n, ∀ {ρ : Type} (conclude : Except OperationError Reply → World → ρ × World),
      (concluded conclude w c).2.budget = n := by
  unfold concluded
  split
  · exact ⟨1, fun conclude => rfl⟩
  · exact ⟨c.budget, fun conclude => rfl⟩

theorem go_ended (fuel : Nat) (w : World) (r : ρ) : go fuel w (.ended r) = (w, .ended r) := by
  cases fuel <;> rfl

/-- From turn to turn a call stays one that may have ended, however its result is used. -/
theorem go_concluded {P : World → Call → Prop} (hkeeps : Call.Keeps P) {w : World} {c : Call}
    (h : P w c) (fuel : Nat) :
    ∃ w' c', P w' c' ∧ ∀ {ρ : Type} (conclude : Except OperationError Reply → World → ρ × World),
      go fuel (concluded conclude w c).1 (concluded conclude w c).2 =
        concluded conclude w' c' := by
  induction fuel generalizing w c with
  | zero => exact ⟨w, c, h, fun conclude => rfl⟩
  | succ fuel ih =>
      by_cases hended : ∃ result, c.phase = .ended result
      · obtain ⟨result, hphase⟩ := hended
        refine ⟨w, c, h, fun conclude => ?_⟩
        simp only [concluded, hphase, go_ended]
      · have hcall : ∀ {ρ : Type} (w : World)
            (conclude : Except OperationError Reply → World → ρ × World),
            concluded conclude w c = (w, .call c conclude) := by
          intro ρ w conclude
          unfold concluded
          split
          · rename_i result hphase
            exact absurd ⟨result, hphase⟩ hended
          · rfl
        cases hstuck : (c.step w).isNone with
        | true =>
            cases hwakes : c.wakes with
            | none =>
                refine ⟨w, c, h, fun conclude => ?_⟩
                simp only [hcall, go, isStuck, hstuck, wakes, hwakes, if_true]
            | some time =>
                obtain ⟨w', c', hP, hgo⟩ := ih (hkeeps.pass (max w.now time) h)
                refine ⟨w', c', hP, fun conclude => ?_⟩
                rw [← hgo conclude]
                simp only [hcall, go, isStuck, hstuck, wakes, hwakes, if_true]
        | false =>
            obtain ⟨w', c', hP, hgo⟩ := ih (hkeeps.poll h c.budget)
            refine ⟨w', c', hP, fun conclude => ?_⟩
            rw [← hgo conclude, hcall]
            simp only [go, isStuck, hstuck, Bool.false_eq_true, if_false, poll_call]

/-- A run of a call ends with a call that may have ended, however its result is used. -/
theorem run_call {P : World → Call → Prop} (hkeeps : Call.Keeps P) {w : World} {c : Call}
    (h : P w c) :
    ∃ w' c', P w' c' ∧ ∀ {ρ : Type} (conclude : Except OperationError Reply → World → ρ × World),
      run w (.call c conclude) =
        ((concluded conclude w' c').2.result?, (concluded conclude w' c').1) := by
  have hpoll := hkeeps.poll h c.budget
  obtain ⟨n, hbudget⟩ := budget_concluded (c.poll c.budget w).1 (c.poll c.budget w).2
  obtain ⟨w', c', hP, hgo⟩ := go_concluded hkeeps hpoll (2 * n + 2)
  refine ⟨w', c', hP, fun conclude => ?_⟩
  unfold run
  simp only [poll_call, hbudget, hgo]

end Activity

end SiblingStore
