import SiblingStore.Client.Bucket
import SiblingStore.Proofs.Client.Steps
import SiblingStore.Proofs.Metrics.Totals

/-!
# What calls and readings count

A step of a call counts an attempt that was announced, announces another after a failure or
ends with one, and does no two of these without the metrics showing it. A reading counts each
conflict it meets as observed, and also what becomes of it unless it hands the siblings out.
-/

namespace SiblingStore

namespace Call

def Phase.isDue : Phase → Bool
  | .ready | .resting _ => true
  | .idle | .queued .. | .working .. | .ended _ | .dropped => false

def Phase.hasFailed : Phase → Bool
  | .ended (.error e) => e.engineError?.isSome
  | .ended (.ok _) | .idle | .ready | .queued .. | .working .. | .resting _ | .dropped => false

/-- Whether the metrics move with a call that goes from one phase to another. -/
def Accounts (m : Metrics) (phase : Phase) (m' : Metrics) (phase' : Phase) : Prop :=
  m.Moves m' ((phase'.isDue.toNat : Int) - phase.isDue.toNat)
    ((phase'.hasFailed.toNat : Int) - phase.hasFailed.toNat)

variable {w : World} {c : Call}

theorem accounts_settle (w : World) (c : Call) (result : Except EngineError Reply) :
    Accounts w.metrics .idle (settle w c result).1.metrics (settle w c result).2.phase := by
  unfold settle
  cases result with
  | ok reply => exact w.metrics.moves_observeLatency c.goal.kind.name 0
  | error e =>
      have hfailed := w.metrics.moves_addFailedAttempts e.className
      have hended := hfailed.trans
        ((w.metrics.addFailedAttempts e.className 1).moves_observeLatency c.goal.kind.name 0)
      dsimp only
      split
      · -- the failure and the retry it leads to cancel out
        exact hfailed.trans (Metrics.moves_count _ (c := .retries) rfl)
      · split_ifs
        · exact hended
        · exact hended

theorem accounts_proceed (w : World) (c : Call) (deadline : Nat) (standing : Pool.Standing) :
    Accounts w.metrics .idle (proceed w c deadline standing).1.metrics
      (proceed w c deadline standing).2.phase := by
  cases standing with
  | held | waits ticket => exact w.metrics.moves_refl
  | refused => exact w.metrics.moves_observeLatency c.goal.kind.name 0

theorem accounts_of_takes {next : World × Call} (h : c.Takes w next) :
    Accounts w.metrics c.phase next.1.metrics next.2.phase := by
  cases h with
  | begin hphase =>
      rw [hphase]
      have hmoves := w.metrics.moves_count (c := c.goal.counter) (by cases c.goal <;> rfl)
      have hpends : c.goal.counter.pends = 1 := by cases c.goal <;> rfl
      have hloses : c.goal.counter.loses = 0 := by cases c.goal <;> rfl
      rw [hpends, hloses] at hmoves
      exact hmoves
  | request hphase =>
      rw [hphase]
      have hmade := w.metrics.moves_addAttempts c.goal.kind.name
      have hproceeds := accounts_proceed
        (World.setPool { w with metrics := w.metrics.addAttempts c.goal.kind.name 1 } c.pool
          (w.pool c.pool).request.2)
        { c with attempts := c.attempts + 1, phase := .ready }
        (w.after c.config.attemptTimeout.ceilMillis) (w.pool c.pool).request.1
      obtain ⟨hpends, hloses, hpresents⟩ := hmade.trans hproceeds
      refine ⟨?_, ?_, hpresents⟩
      · rw [hpends]
        show w.metrics.pending + (-1 + (_ - 0)) = w.metrics.pending + (_ - 1)
        omega
      · rw [hloses]
        show w.metrics.lost + (0 + (_ - 0)) = w.metrics.lost + (_ - 0)
        omega
  | @claim ticket deadline hphase =>
      rw [hphase]
      exact accounts_proceed (w.setPool c.pool ((w.pool c.pool).claim ticket).2) c deadline
        ((w.pool c.pool).claim ticket).1
  | @leave ticket deadline hphase =>
      rw [hphase]
      exact accounts_settle (w.setPool c.pool ((w.pool c.pool).leave ticket)) c c.timeout
  | @fly flight flight' deadline w' hphase hstep =>
      have hframes := flight.frames_step w
      rw [hstep] at hframes
      rw [hphase]
      show Accounts w.metrics _ w'.metrics _
      rw [hframes.2]
      exact w.metrics.moves_refl
  | @receive flight deadline result w' hphase hstep =>
      have hframes := flight.frames_step w
      rw [hstep] at hframes
      rw [hphase, ← hframes.2]
      rcases receive_cases w' c deadline result with ⟨next, heq⟩ | heq
      · rw [heq]
        exact w'.metrics.moves_refl
      · rw [heq]
        exact accounts_settle (release w' c) c result
  | late hphase =>
      rw [hphase]
      exact accounts_settle (release w c) c c.timeout
  | wake hphase =>
      rw [hphase]
      exact w.metrics.moves_refl

end Call

/-! ## What becomes of replies -/

theorem World.foldl_count (cs : List Counter) (w : World) :
    cs.foldl World.count w = { w with metrics := cs.foldl Metrics.count w.metrics } := by
  induction cs generalizing w with
  | nil => rfl
  | cons c cs ih => exact ih (w.count c)

/-- Whether from a world to another neither the engine nor the balance of attempts has moved. -/
structure World.Stays (w w' : World) : Prop where
  backend : w'.backend = w.backend
  chaos : w'.chaos = w.chaos
  pending : w'.metrics.pending = w.metrics.pending
  lost : w'.metrics.lost = w.metrics.lost

variable {α β : Type} {hands : α → Bool} {hands' : β → Bool}

/-- Whether what is made of a world counts the conflicts that it hands out as observed and no
others, and blames no failure on the engine. -/
structure Fair (hands : α → Bool) (w : World) (next : Except OperationError α × World) : Prop where
  stays : w.Stays next.2
  presented : next.2.metrics.presented =
    w.metrics.presented + (next.1.toOption.any hands).toNat
  engineError? : ∀ e, next.1 = .error e → e.engineError? = none

namespace Fair

variable {w w' : World} {a : α} {b : β} {e : OperationError}

theorem ok (w : World) (h : hands a = false) : Fair hands w (.ok a, w) where
  stays := ⟨rfl, rfl, rfl, rfl⟩
  presented := by
    show w.metrics.presented = w.metrics.presented + ((hands a).toNat : Int)
    rw [h]
    exact (Int.add_zero _).symm
  engineError? := fun _ h => by cases h

theorem error (h : Fair hands w (.error e, w')) : Fair hands' w (.error e, w') where
  stays := h.stays
  presented := h.presented
  engineError? := by
    rintro _ ⟨⟩
    exact h.engineError? e rfl

theorem map (h : Fair hands w (.ok a, w')) (hsame : hands' b = hands a) :
    Fair hands' w (.ok b, w') where
  stays := h.stays
  presented := by
    show _ = _ + ((hands' b).toNat : Int)
    rw [hsame]
    exact h.presented
  engineError? := fun _ h => by cases h

theorem congr {hands' : α → Bool} {next : Except OperationError α × World}
    (h : Fair hands w next) (hsame : ∀ a, next.1 = .ok a → hands' a = hands a) :
    Fair hands' w next where
  stays := h.stays
  presented := by
    rw [h.presented]
    cases hresult : next.1 with
    | error e => rfl
    | ok a =>
        show _ + ((hands a).toNat : Int) = _ + ((hands' a).toNat : Int)
        rw [hsame a hresult]
  engineError? := h.engineError?

theorem trans {next : Except OperationError β × World}
    (h : Fair (fun _ => false) w (.ok a, w')) (h' : Fair hands' w' next) :
    Fair hands' w next where
  stays :=
    { backend := h'.stays.backend.trans h.stays.backend
      chaos := h'.stays.chaos.trans h.stays.chaos
      pending := h'.stays.pending.trans h.stays.pending
      lost := h'.stays.lost.trans h.stays.lost }
  presented := by
    rw [h'.presented, h.presented]
    show w.metrics.presented + 0 + _ = _
    rw [Int.add_zero]
  engineError? := h'.engineError?

end Fair

namespace Pending

/-- Whether an operation is refused through no fault of the engine, or has yet to begin and
makes fair use of its reply. -/
def IsFair (hands : α → Bool) : Pending α → Prop
  | refused e => e.engineError? = none
  | calls c conclude => c.phase = .idle ∧ ∀ reply w, Fair hands w (conclude reply w)

theorem isFair_ofCall {c : Call} (h : c.phase = .idle) (read : Reply → α) :
    (ofCall c read).IsFair fun _ => false :=
  ⟨h, fun _ w => .ok w rfl⟩

theorem isFair_andThen {p : Pending α} {f : α → World → Except OperationError β × World}
    (h : p.IsFair fun _ => false) (hf : ∀ a w, Fair hands' w (f a w)) :
    (p.andThen f).IsFair hands' := by
  cases p with
  | refused e => exact h
  | calls c conclude =>
      refine ⟨h.1, fun reply w => ?_⟩
      have hfair := h.2 reply w
      dsimp only
      split
      · rename_i e w' heq
        rw [heq] at hfair
        exact hfair.error
      · rename_i a w' heq
        rw [heq] at hfair
        exact hfair.trans (hf a w')

theorem isFair_map {p : Pending α} {f : α → β} (h : p.IsFair hands)
    (hf : ∀ a, hands' (f a) = hands a) : (p.map f).IsFair hands' := by
  cases p with
  | refused e => exact h
  | calls c conclude =>
      refine ⟨h.1, fun reply w => ?_⟩
      have hfair := h.2 reply w
      dsimp only
      split
      · rename_i e w' heq
        rw [heq] at hfair
        exact hfair.error
      · rename_i a w' heq
        rw [heq] at hfair
        exact hfair.map (hf a)

end Pending

def Fetched.handsOut (found : Option (Fetched α)) : Bool := (found.bind Fetched.siblings?).isSome

namespace Bucket

open Fetched (handsOut)

variable {α : Type} {b : Bucket α}

theorem fair_conclude {r : Reading α} (hpends : Counter.sum Counter.pends r.counters = 0)
    (hloses : Counter.sum Counter.loses r.counters = 0)
    (hpresents : Counter.sum Counter.presents r.counters = (r.result.toOption.any handsOut).toNat)
    (herror : ∀ e, r.result = .error e → e.engineError? = none) (w : World) :
    Fair handsOut w (r.conclude w) := by
  unfold Reading.conclude
  rw [World.foldl_count]
  refine ⟨⟨rfl, rfl, ?_, ?_⟩, ?_, herror⟩
  · show (r.counters.foldl Metrics.count w.metrics).pending = w.metrics.pending
    rw [w.metrics.foldl_count Metrics.pending_count, hpends, Int.add_zero]
  · show (r.counters.foldl Metrics.count w.metrics).lost = w.metrics.lost
    rw [w.metrics.foldl_count Metrics.lost_count, hloses, Int.add_zero]
  · show (r.counters.foldl Metrics.count w.metrics).presented = _
    rw [w.metrics.foldl_count Metrics.presented_count, hpresents]

theorem fair_found {found : Option (Fetched α)} {counters : List Counter} {events : List Event}
    (hpends : Counter.sum Counter.pends counters = 0)
    (hloses : Counter.sum Counter.loses counters = 0)
    (hpresents : Counter.sum Counter.presents counters = (handsOut found).toNat) (w : World) :
    Fair handsOut w (Reading.conclude ⟨.ok found, counters, events⟩ w) := by
  apply fair_conclude hpends hloses hpresents
  intro e h
  cases h

theorem fair_settle (b : Bucket α) (s : SiblingSet α) (w : World) :
    Fair handsOut w ((b.settle s).conclude w) := by
  unfold settle
  split
  · exact fair_found rfl rfl rfl w
  · have herror (u : Unresolved) (e : OperationError)
        (h : (.error (.unresolved u) : Except OperationError (Option (Fetched α))) = .error e) :
        e.engineError? = none := by
      cases h
      rfl
    unfold Unresolved.counters
    split_ifs
    · exact fair_conclude rfl rfl rfl (herror _) w
    · exact fair_conclude rfl rfl rfl (herror _) w

/-- Of a conflict that it cannot settle a bucket takes down what the resolver does by itself,
after having seen the conflict and before leaving it. -/
theorem conclude_settle_of_error {s : SiblingSet α} {w w' : World} {u : Unresolved}
    (h : b.resolver.resolve s (w.count .siblingsObserved) = (.error u, w')) :
    (b.settle s).conclude w = (.error (.unresolved u), w'.count .conflictsUnresolved) := by
  unfold Resolver.resolve at h
  unfold settle Reading.conclude
  cases hresolved : b.resolver s with
  | ok a =>
      rw [hresolved] at h
      cases h
  | error u' =>
      rw [hresolved] at h
      injection h with hu hw'
      injection hu with hu
      subst hu
      rw [← hw']
      simp only [List.foldl_append, List.foldl_cons, List.foldl_nil]
      rfl

theorem fair_present (b : Bucket α) (resolve : Bool) (s : SiblingSet α) (w : World) :
    Fair handsOut w ((b.present resolve s).conclude w) := by
  unfold present
  split_ifs
  · exact fair_found rfl rfl rfl w
  · exact b.fair_settle s w
  · exact fair_found rfl rfl rfl w

theorem decodeAll_error {l : Location} {vs : List RawVersion} {e : OperationError}
    (h : b.decodeAll l vs = .error e) : e.engineError? = none := by
  induction vs with
  | nil => cases h
  | cons v vs ih =>
      unfold decodeAll decodeOne at h
      cases hv : b.codec.decode v.value with
      | error cause =>
          rw [hv] at h
          cases h
          rfl
      | ok a =>
          rw [hv] at h
          cases hvs : b.decodeAll l vs with
          | error e' =>
              simp only [hvs] at h
              cases h
              exact ih hvs
          | ok members =>
              simp only [hvs] at h
              cases h

theorem fair_read (b : Bucket α) (l : Location) (resolve : Bool) (reply : FetchReply)
    (w : World) : Fair handsOut w ((b.read l resolve reply).conclude w) := by
  unfold read
  split
  · rename_i e heq
    apply fair_conclude rfl rfl rfl
    intro e' h
    cases h
    exact decodeAll_error heq
  · split
    · exact fair_found rfl rfl rfl w
    · exact b.fair_present resolve _ w

theorem not_handsOut_read {l : Location} {reply : FetchReply} {found : Option (Fetched α)}
    (h : (b.read l true reply).result = .ok found) : handsOut found = false := by
  unfold read present settle at h
  split at h
  · cases h
  · split at h
    · cases h
      rfl
    · split at h
      · cases h
        rfl
      · simp only [if_true] at h
        split at h
        · cases h
          rfl
        · cases h

theorem isFair_fetch (b : Bucket α) (c : Client) (key : String) (config : OperationConfig) :
    (b.fetch c key config).IsFair handsOut := by
  apply Pending.isFair_andThen (Pending.isFair_ofCall rfl _)
  intro reply w
  exact b.fair_read (b.locate key) (!config.allowSiblings) reply w

theorem isFair_fetchValue (b : Bucket α) (c : Client) (key : String) (config : OperationConfig) :
    (b.fetchValue c key config).IsFair fun _ => false := by
  have hfetch : (b.fetch c key { config with allowSiblings := false }).IsFair
      fun _ => false := by
    apply Pending.isFair_andThen (Pending.isFair_ofCall rfl _)
    intro reply w
    apply (b.fair_read (b.locate key) true reply w).congr
    intro found h
    exact (not_handsOut_read h).symm
  exact Pending.isFair_map hfetch fun _ => rfl

theorem isFair_store (b : Bucket α) (c : Client) (key : String) (value : α)
    (config : OperationConfig) : (b.store c key value config).IsFair handsOut := by
  unfold store
  split
  · rfl
  · apply Pending.isFair_andThen (Pending.isFair_ofCall rfl _)
    intro reply w
    split
    · split_ifs
      · exact b.fair_read (b.locate key) false _ w
      · apply Fair.ok
        rfl
    · apply Fair.ok
      rfl

theorem isFair_withKey {hands : β → Bool} {k : ObjectKey α} {object : α}
    {go : String → Pending β} (h : ∀ key, (go key).IsFair hands) :
    (b.withKey k object go).IsFair hands := by
  unfold withKey
  split
  · exact h _
  · rfl

end Bucket

end SiblingStore
