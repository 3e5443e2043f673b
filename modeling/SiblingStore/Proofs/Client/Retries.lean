import SiblingStore.Proofs.Client.Attempt

/-!
# Attempts and the time they take

A call that finds a connection free for every attempt tries again as long as attempts
fail in passing and the configuration allows it. How often it tries, what it ends with
and how long it takes follow from the courses of its attempts.
-/

namespace SiblingStore

namespace Call

variable {w : World} {c : Call} {kind : RequestKind} {now made : Nat} {s : Script}
  {pools : List Pool}

/-! ## What follows an attempt -/

theorem settle_meets (h : w.Meets kind now s pools made) (c : Call)
    (result : Except EngineError Reply) : (settle w c result).1.Meets kind now s pools made := by
  unfold settle
  cases result with
  | ok reply => exact h.congr rfl rfl rfl rfl rfl
  | error e =>
      dsimp only
      split
      · refine World.Meets.count ?_ .retries
        exact h.congr rfl rfl rfl rfl rfl
      · split_ifs
        · exact h.congr rfl rfl rfl rfl rfl
        · exact h.congr rfl rfl rfl rfl rfl

theorem settle_again {result : Except EngineError Reply} (htransient : Outcome.of result = .transient)
    (hmore : c.attempts ≤ c.config.retries) :
    (settle w c result).2 = { c with phase := .resting (w.now + c.rest c.attempts) } := by
  cases result with
  | ok reply => cases htransient
  | error e =>
      have hadvance : OperationState.pending.advance (.ofError e) c.attempts c.config.retries =
          .retrying (c.attempts + 1) := by
        rw [show Outcome.ofError e = .transient from htransient]
        exact if_pos hmore
      unfold settle
      dsimp only
      rw [hadvance]
      rfl

theorem settle_last {result : Except EngineError Reply}
    (hlast : Outcome.of result ≠ .transient ∨ c.attempts = c.config.retries + 1) :
    (settle w c result).2 = { c with phase := .ended (c.verdict c.attempts result) } := by
  cases result with
  | ok reply => rfl
  | error e =>
      have hattempts (he : e.isTransient = true) : c.attempts = c.config.retries + 1 := by
        apply hlast.resolve_left
        simp [Outcome.of, Outcome.ofError, he]
      have hadvance : OperationState.pending.advance (.ofError e) c.attempts c.config.retries =
          .failed := by
        unfold Outcome.ofError
        split_ifs with he
        · have hover : ¬ c.attempts ≤ c.config.retries := by
            have := hattempts he
            omega
          exact if_neg hover
        · rfl
      unfold settle verdict
      dsimp only
      rw [hadvance]
      dsimp only
      split_ifs with he
      · rw [← hattempts he]
        rfl
      · rfl

theorem leads_rest (h : w.Meets kind now s pools made) (c : Call) (millis : Nat) :
    ∃ w', w'.Meets kind (now + millis) s pools made ∧
      Leads 2 w { c with phase := .resting (now + millis) } (w', { c with phase := .ready }) := by
  have hnow := h.now_eq
  refine ⟨{ w with now := now + millis }, h.pass _, ?_⟩
  have hwait : Leads 1 w { c with phase := .resting (now + millis) }
      ({ w with now := now + millis }, { c with phase := .resting (now + millis) }) :=
    leads_to rfl (by omega) fun hlt => if_neg (by omega)
  exact hwait.trans (leads_of_step (if_pos (Nat.le_refl _)))

/-! ## All attempts -/

variable {start : Nat}

/-- What a call meets that is about to make attempt number `i`, counted from zero. -/
def MeetsAt (c : Call) (s : Script) (start : Nat) (pools : List Pool) (made i : Nat)
    (w : World) : Prop :=
  w.Meets c.goal.kind (start + total (c.spentAt s) i + total (fun j => c.rest (j + 1)) i)
    (c.scriptAt s i) pools (made + i)

theorem leads_attemptAt (htyped : s.Typed) (hlends : (pools.getD c.pool default).Lends) {i : Nat}
    (h : c.MeetsAt s start pools made i w) :
    ∃ w', w'.Meets c.goal.kind
        (start + total (c.spentAt s) (i + 1) + total (fun j => c.rest (j + 1)) i)
        (c.scriptAt s (i + 1)) pools (made + (i + 1)) ∧
      Leads 9 w { c with attempts := i, phase := .ready }
        (settle w' { c with attempts := i + 1 } (c.outcomeAt s i)) := by
  obtain ⟨w', hmeets, hattempt⟩ := leads_attempt (c := { c with attempts := i, phase := .ready })
    (htyped.scriptAt c i) hlends h rfl
  have htime : start + total (c.spentAt s) i + total (fun j => c.rest (j + 1)) i + c.spentAt s i =
      start + total (c.spentAt s) (i + 1) + total (fun j => c.rest (j + 1)) i := by
    rw [total]
    omega
  refine ⟨w', htime ▸ hmeets, ?_⟩
  rw [← settle_phase w' { c with attempts := i + 1 } .ready]
  exact hattempt

theorem leads_again (htyped : s.Typed) (hlends : (pools.getD c.pool default).Lends) {i : Nat}
    (h : c.MeetsAt s start pools made i w) (htransient : Outcome.of (c.outcomeAt s i) = .transient)
    (hmore : i < c.config.retries) :
    ∃ w', c.MeetsAt s start pools made (i + 1) w' ∧
      Leads 11 w { c with attempts := i, phase := .ready }
        (w', { c with attempts := i + 1, phase := .ready }) := by
  obtain ⟨w₁, hmeets₁, hattempt⟩ := leads_attemptAt htyped hlends h
  have hsettled := settle_meets hmeets₁ { c with attempts := i + 1 } (c.outcomeAt s i)
  have hagain : settle w₁ { c with attempts := i + 1 } (c.outcomeAt s i) =
      ((settle w₁ { c with attempts := i + 1 } (c.outcomeAt s i)).1,
        { c with attempts := i + 1, phase := .resting (w₁.now + c.rest (i + 1)) }) :=
    Prod.ext rfl (settle_again (c := { c with attempts := i + 1 }) htransient hmore)
  rw [hagain, hmeets₁.now_eq] at hattempt
  obtain ⟨w', hmeets, hrest⟩ := leads_rest hsettled { c with attempts := i + 1 } (c.rest (i + 1))
  refine ⟨w', ?_, hattempt.trans hrest⟩
  rw [Nat.add_assoc] at hmeets
  exact hmeets

theorem leads_last (htyped : s.Typed) (hlends : (pools.getD c.pool default).Lends) {i : Nat}
    (h : c.MeetsAt s start pools made i w)
    (hlast : i = c.config.retries ∨ Outcome.of (c.outcomeAt s i) ≠ .transient) :
    ∃ w', w'.Meets c.goal.kind
        (start + total (c.spentAt s) (i + 1) + total (fun j => c.rest (j + 1)) i)
        (c.scriptAt s (i + 1)) pools (made + (i + 1)) ∧
      Leads 9 w { c with attempts := i, phase := .ready }
        (w', { c with attempts := i + 1,
                      phase := .ended (c.verdict (i + 1) (c.outcomeAt s i)) }) := by
  obtain ⟨w₁, hmeets₁, hattempt⟩ := leads_attemptAt htyped hlends h
  have hended : (settle w₁ { c with attempts := i + 1 } (c.outcomeAt s i)).2 =
      { c with attempts := i + 1, phase := .ended (c.verdict (i + 1) (c.outcomeAt s i)) } :=
    settle_last (hlast.symm.imp_right (congrArg (· + 1)))
  refine ⟨_, settle_meets hmeets₁ { c with attempts := i + 1 } (c.outcomeAt s i), ?_⟩
  rw [← hended]
  exact hattempt

/-- Attempts follow each other until one is not made again. -/
theorem leads_end (htyped : s.Typed) (hlends : (pools.getD c.pool default).Lends) {i left : Nat}
    (hleft : i + left = c.config.retries) (h : c.MeetsAt s start pools made i w) :
    ∃ n ≤ c.config.retries, (∀ j, i ≤ j → j < n → Outcome.of (c.outcomeAt s j) = .transient) ∧
      (n = c.config.retries ∨ Outcome.of (c.outcomeAt s n) ≠ .transient) ∧
      ∃ w', w'.Meets c.goal.kind
          (start + total (c.spentAt s) (n + 1) + total (fun j => c.rest (j + 1)) n)
          (c.scriptAt s (n + 1)) pools (made + (n + 1)) ∧
        Leads (11 * left + 9) w { c with attempts := i, phase := .ready }
          (w', { c with attempts := n + 1,
                        phase := .ended (c.verdict (n + 1) (c.outcomeAt s n)) }) := by
  -- on the retries left; what the call meets before an attempt carries the induction
  induction left generalizing i w with
  | zero =>
      obtain ⟨w', hmeets, hlast⟩ := leads_last htyped hlends h (.inl hleft)
      exact ⟨i, by omega, fun j hij hji => by omega, .inl hleft, w', hmeets, hlast⟩
  | succ left ih =>
      by_cases htransient : Outcome.of (c.outcomeAt s i) = .transient
      · obtain ⟨w₁, hmeets₁, hagain⟩ := leads_again htyped hlends h htransient (by omega)
        obtain ⟨n, hn, hbefore, hend, w', hmeets, hleads⟩ := ih (by omega) hmeets₁
        refine ⟨n, hn, fun j hij hjn => ?_, hend, w', hmeets,
          (hagain.trans hleads).mono (by omega)⟩
        rcases Nat.eq_or_lt_of_le hij with rfl | hlt
        · exact htransient
        · exact hbefore j hlt hjn
      · obtain ⟨w', hmeets, hlast⟩ := leads_last htyped hlends h (.inr htransient)
        exact ⟨i, by omega, fun j hij hji => by omega, .inr htransient, w', hmeets,
          hlast.mono (by omega)⟩

end Call

/-- Attempts are made up to the first that does not fail in passing, or as many as are
allowed, and never more than a word of 32 bits can count. The last one decides what the operation
ends with; the time is that of the attempts, each cut off at its limit, and of the rests between
them. -/
theorem run_attempts {w : World} {s : Script} (hscript : w.backend = .script s)
    (htyped : s.Typed) (hquiet : w.chaos.Quiet) (client : Client)
    (hlends : (w.pool client.pool).Lends) (goal : Goal) (config : OperationConfig)
    (hretries : config.retries < UInt32.size - 1) :
    let c := client.call goal config
    ∃ n ≤ config.retries, n + 1 < UInt32.size ∧
      (∀ i < n, Outcome.of (c.outcomeAt s i) = .transient) ∧
      (n = config.retries ∨ Outcome.of (c.outcomeAt s n) ≠ .transient) ∧
      ∃ w', (∀ {ρ : Type} (conclude : Except OperationError Reply → World → ρ × World),
          Activity.run w (.call c conclude) =
            (some (conclude (c.verdict (n + 1) (c.outcomeAt s n)) w').1,
              (conclude (c.verdict (n + 1) (c.outcomeAt s n)) w').2)) ∧
        w'.now = w.now + total (c.spentAt s) (n + 1) + total (fun i => c.rest (i + 1)) n ∧
        w'.backend = .script (c.scriptAt s (n + 1)) ∧ w'.pools = w.pools ∧
        w'.metrics.attemptsOf goal.kind = w.metrics.attemptsOf goal.kind + (n + 1) := by
  intro c
  have hmeets : w.Meets goal.kind w.now s w.pools (w.metrics.attemptsOf goal.kind) :=
    ⟨rfl, hscript, hquiet, rfl, rfl⟩
  have hbegins : c.Leads 1 w (w.count goal.counter, { c with phase := .ready }) :=
    Call.leads_of_step rfl
  obtain ⟨n, hn, hbefore, hlast, w', hmeets', hleads⟩ :=
    Call.leads_end (c := c) htyped hlends (Nat.zero_add _) (hmeets.count goal.counter)
  have hcount : n + 1 < UInt32.size :=
    Nat.lt_of_le_of_lt (Nat.succ_le_succ hn) (Nat.add_lt_of_lt_sub hretries)
  refine ⟨n, hn, hcount, fun i hi => hbefore i (Nat.zero_le i) hi, hlast, w', fun conclude => ?_,
    hmeets'.now_eq, hmeets'.backend, hmeets'.pools_eq, hmeets'.made_eq⟩
  refine Activity.run_of_leads conclude ((hbegins.trans hleads).mono ?_) rfl
  change 1 + (11 * config.retries + 9) ≤ 12 * (config.retries + 2)
  omega

/-- A script whose first reply to a read never comes and whose second refuses the read. -/
def Script.silentThenRefusing : Script :=
  ⟨⟨[⟨.ok (.fetched default), none⟩, ⟨.error (.malformed .emptyKey), some 30⟩], [], [], []⟩, []⟩

def OperationConfig.hasty : OperationConfig :=
  { OperationConfig.standard with
    retries := 2, attemptTimeout := .ofMillis 50, backoff := .fixed (.ofMillis 70) }

theorem run_attempts_hasty :
    ∃ w', Activity.run (World.ofBackend (.script .silentThenRefusing) .none)
        (.call ((default : Client).call (.fetch ⟨"b", "k"⟩) .hasty) fun result w => (result, w)) =
          (some (.error (.permanent .get (.key ⟨"b", "k"⟩) 2 (.malformed .emptyKey))), w') ∧
      w'.now = 150 ∧ w'.metrics.attemptsOf .get = 2 := by
  have htyped : Script.silentThenRefusing.Typed := by
    intro kind scripted hmem reply hreply
    cases kind with
    | get =>
        rcases List.mem_pair.1 hmem with rfl | rfl
        · injection hreply with hreply
          rw [← hreply]
          rfl
        · cases hreply
    | put | delete | listKeys => cases hmem
  obtain ⟨n, hn, -, hbefore, hlast, w', hrun, hnow, -, -, hmade⟩ :=
    run_attempts (w := World.ofBackend (.script .silentThenRefusing) .none) rfl htyped
      ⟨rfl, rfl, fun kind => by cases kind <;> rfl⟩ default ⟨rfl, by decide, rfl⟩
      (.fetch ⟨"b", "k"⟩) .hasty (by decide)
  have hsilent : Outcome.of (((default : Client).call (.fetch ⟨"b", "k"⟩) .hasty).outcomeAt
      .silentThenRefusing 0) = .transient := rfl
  have hrefused : Outcome.of (((default : Client).call (.fetch ⟨"b", "k"⟩) .hasty).outcomeAt
      .silentThenRefusing 1) ≠ .transient := by decide
  obtain rfl : n = 1 := by
    have hpos : n ≠ 0 := by
      rintro rfl
      exact hlast.elim (by decide) fun h => h hsilent
    have hle : ¬ 1 < n := fun h => hrefused (hbefore 1 h)
    omega
  exact ⟨w', hrun _, hnow, hmade⟩

/-- A rest of more than thirty years is cut short: the second attempt comes too early. -/
theorem run_attempts_longRest :
    let config := { OperationConfig.standard with
      retries := 1, backoff := .fixed (.ofMillis 1000000000000) }
    let ran := Activity.run (World.ofBackend (.script
        ⟨⟨[⟨.error (.unavailable "d"), some 0⟩], [], [], []⟩, []⟩) .none)
      (.call ((default : Client).call (.fetch ⟨"b", "k"⟩) config) fun result w => (result, w))
    ran.1 = some (.ok (.fetched default)) ∧ ran.2.metrics.attemptsOf .get = 2 ∧
      ran.2.now ≠ (config.backoff.delay 1).ceilMillis := by
  refine ⟨rfl, ?_, ?_⟩
  · decide +kernel
  · decide +kernel

end SiblingStore
