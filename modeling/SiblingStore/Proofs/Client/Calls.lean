import SiblingStore.Client.Call
import SiblingStore.Proofs.Cluster.Sequential
import SiblingStore.Proofs.Simulation.Activity

/-!
# Calls of a sequential client

A call on a cluster that stands for a map: as long as it is under way the cluster
stands for that map, whatever the attempts, rests and waits for a connection, and
once it has succeeded the map has changed as the goal says and the reply tells it.
-/

namespace SiblingStore

open Cluster (update)

/-! ## Goals on a map -/

namespace Goal

def after (m : Location → Option Bytes) : Goal → Location → Option Bytes
  | fetch _ | keys _ => m
  | store l value => update m l (some value)
  | delete l => update m l none

def Answers (m : Location → Option Bytes) (reply : Reply) : Goal → Prop
  | fetch l => reply.found.versions.map (·.value) = (m l).toList
  | store _ value => ∀ body, reply.stored.body = some body →
      body.versions.map (·.value) = [value]
  | delete _ => True
  | keys bucket => (∀ key, key ∈ reply.names ↔ (m ⟨bucket, key⟩).isSome = true) ∧
      reply.names.Pairwise fun a b => Text.Utf8.encode a < Text.Utf8.encode b

/-- Whether the goal is pursued with more than half of the replicas, and a store builds on
what it reads itself. -/
def AsksMost (c : Cluster) (config : OperationConfig) : Goal → Prop
  | fetch _ => c.ReadsMost config.quorum
  | store .. => config.context = none ∧ c.ReadsMost config.quorum ∧ c.WritesMost config.quorum
  | delete _ => c.WritesMost config.quorum
  | keys _ => c.Most (·.up = true)

end Goal

/-! ## Requests that are served at once -/

structure Chaos.Quiet (c : Chaos) : Prop where
  calm : c.failing = false
  prompt : c.latency = 0
  unqueued : ∀ kind, c.queued.of kind = []

theorem Chaos.Quiet.count {c : Chaos} (h : c.Quiet) (kind : RequestKind) :
    (c.count kind).Quiet :=
  ⟨h.calm, h.prompt, h.unqueued⟩

theorem Chaos.Quiet.fault_eq {c : Chaos} (h : c.Quiet) (kind : RequestKind) :
    c.fault kind false = (Option.none, c) := by
  unfold Chaos.fault
  rw [h.unqueued]
  rfl

namespace Flight

theorem step_entering {f : Flight} {w : World} (h : w.chaos.Quiet) (hstage : f.stage = .entering) :
    f.step w = .moves { f with stage := .reaching false }
      { w with chaos := w.chaos.count f.request.kind } := by
  have hquiet := h.count f.request.kind
  unfold step
  rw [hstage]
  dsimp only
  rw [if_pos hquiet.prompt, hquiet.calm]

theorem step_eq_reach {f : Flight} {w : World} (h : w.chaos.Quiet)
    (hstage : f.stage = .reaching false) : f.step w = f.reach w := by
  unfold step
  rw [hstage]
  dsimp only
  rw [h.fault_eq]

theorem step_reaching {f : Flight} {w : World} (h : w.chaos.Quiet)
    (hstage : f.stage = .reaching false) {result : Except EngineError Reply}
    (hreply : (w.serve f.request).1 = ⟨result, some 0⟩) :
    f.step w = .arrives result (w.serve f.request).2 := by
  rw [step_eq_reach h hstage]
  unfold reach
  dsimp only
  rw [hreply]
  rfl

end Flight

def Cluster.answer (c : Cluster) (stamp : Stamp) : Request → Except EngineError Reply × Cluster
  | .get l q => ((c.get l q).result.map .fetched, (c.get l q).cluster)
  | .put r => ((c.put r stamp).result.map .put, (c.put r stamp).cluster)
  | .delete l q =>
    ((c.delete l q stamp).result.map fun _ => .deleted, (c.delete l q stamp).cluster)
  | .listKeys bucket => ((c.listKeys bucket).result.map .keys, (c.listKeys bucket).cluster)

theorem World.serve_cluster {w : World} {c : Cluster} (h : w.backend = .cluster c)
    (r : Request) :
    (w.serve r).1 = ⟨(c.answer (.ofNat w.served) r).1, some 0⟩ ∧
      (w.serve r).2.backend = .cluster (c.answer (.ofNat w.served) r).2 ∧
      (w.serve r).2.chaos = w.chaos ∧ (w.serve r).2.metrics = w.metrics := by
  unfold serve tell
  rw [h]
  cases r <;> exact ⟨rfl, rfl, rfl, rfl⟩

theorem eq_error_of_map {ε α β : Type} {x : Except ε α} {f : α → β} {e : ε}
    (h : x.map f = .error e) : x = .error e := by
  cases x with
  | error e' => injection h with h; rw [h]
  | ok a => exact absurd h (by simp [Except.map])

theorem exists_ok_of_map {ε α β : Type} {x : Except ε α} {f : α → β} {b : β}
    (h : x.map f = .ok b) : ∃ a, x = .ok a ∧ b = f a := by
  cases x with
  | error e => exact absurd h (by simp [Except.map])
  | ok a => injection h with h; exact ⟨a, rfl, h.symm⟩

theorem Cluster.answer_error {c : Cluster} {stamp : Stamp} {r : Request} {e : EngineError}
    (h : (c.answer stamp r).1 = .error e) : (c.answer stamp r).2 = c := by
  cases r with
  | get l q => exact get_error (eq_error_of_map h)
  | put r => exact put_error (eq_error_of_map h)
  | delete l q => exact delete_error (eq_error_of_map h)
  | listKeys bucket => exact listKeys_cluster c bucket

/-! ## The invariant -/

/-- Whether a world without faults holds a cluster that stands for a map, with so many
fetches that have met siblings. -/
structure World.Stands (m : Location → Option Bytes) (met : Nat) (w : World) : Prop where
  quiet : w.chaos.Quiet
  reflects : ∃ cluster, w.backend = .cluster cluster ∧ cluster.Reflects m
  met : w.metrics.siblingsObserved = met

namespace Call

/-- What holds before a call has succeeded. -/
structure Pursues (m : Location → Option Bytes) (met : Nat) (goal : Goal) (w : World) (c : Call)
    (cluster : Cluster) : Prop where
  goal_eq : c.goal = goal
  backend : w.backend = .cluster cluster
  quiet : w.chaos.Quiet
  met : w.metrics.siblingsObserved = met
  reflects : cluster.Reflects m
  unspent : cluster.Unspent
  asks : goal.AsksMost cluster c.config

/-- The requests of a call: the first, or the write that follows a read. -/
def Expects (c : Call) (cluster : Cluster) (r : Request) : Prop :=
  r = c.firstRequest ∨ ∃ l value context, c.goal = .store l value ∧
    r = c.putRequest l value context ∧ cluster.Covers l context

def Sound (m : Location → Option Bytes) (met : Nat) (goal : Goal) (w : World) (c : Call) : Prop :=
  match c.phase with
  | .ended (.ok reply) => goal.Answers m reply ∧ w.Stands (goal.after m) met
  | .working flight _ => ∃ cluster, c.Pursues m met goal w cluster ∧
      (flight.stage = .entering ∨ flight.stage = .reaching false) ∧
      c.Expects cluster flight.request
  | _ => ∃ cluster, c.Pursues m met goal w cluster

variable {m : Location → Option Bytes} {met : Nat} {goal : Goal} {w w' : World}
  {c c' : Call} {cluster : Cluster}

theorem Pursues.stands (h : c.Pursues m met goal w cluster) : w.Stands m met :=
  ⟨h.quiet, ⟨cluster, h.backend, h.reflects⟩, h.met⟩

/-- Only the engine, its faults, one counter, the goal and the parameters matter. -/
theorem Pursues.congr (h : c.Pursues m met goal w cluster) (hbackend : w'.backend = w.backend)
    (hchaos : w'.chaos = w.chaos)
    (hmet : w'.metrics.siblingsObserved = w.metrics.siblingsObserved)
    (hgoal : c'.goal = c.goal) (hconfig : c'.config = c.config) :
    c'.Pursues m met goal w' cluster where
  goal_eq := hgoal.trans h.goal_eq
  backend := hbackend.trans h.backend
  quiet := hchaos ▸ h.quiet
  met := hmet.trans h.met
  reflects := h.reflects
  unspent := h.unspent
  asks := by
    rw [hconfig]
    exact h.asks

theorem Expects.eq_firstRequest {r : Request} (h : c.Expects cluster r)
    (hgoal : ∀ l value, c.goal ≠ .store l value) : r = c.firstRequest := by
  rcases h with hfirst | ⟨l, value, -, hstore, -, -⟩
  · exact hfirst
  · exact absurd hstore (hgoal l value)

/-- A reply to a call either leads to the write that builds on it or achieves the goal. -/
theorem Pursues.answer (h : c.Pursues m met goal w cluster) {r : Request} (hr : c.Expects cluster r)
    {stamp : Stamp} {reply : Reply} (hreply : (cluster.answer stamp r).1 = .ok reply) :
    (∃ next, c.nextRequest reply = some next ∧ (cluster.answer stamp r).2.Reflects m ∧
        (cluster.answer stamp r).2.Unspent ∧
        goal.AsksMost (cluster.answer stamp r).2 c.config ∧
        c.Expects (cluster.answer stamp r).2 next) ∨
      (c.nextRequest reply = none ∧ goal.Answers m reply ∧
        (cluster.answer stamp r).2.Reflects (goal.after m)) := by
  have hgoal := h.goal_eq
  have hasks := h.asks
  cases goal with
  | fetch l =>
      obtain rfl := hr.eq_firstRequest (by simp [hgoal])
      simp only [firstRequest, hgoal] at hreply ⊢
      obtain ⟨found, hfound, rfl⟩ := exists_ok_of_map hreply
      obtain ⟨hvalue, hreflects, -, -⟩ := h.reflects.get h.unspent hasks hfound
      exact .inr ⟨by simp only [nextRequest, hgoal], hvalue, hreflects⟩
  | store l value =>
      rcases hr with rfl | ⟨l', value', context, hstore, rfl, hcovers⟩
      · simp only [firstRequest, hgoal, hasks.1] at hreply ⊢
        obtain ⟨found, hfound, rfl⟩ := exists_ok_of_map hreply
        obtain ⟨-, hreflects, hunspent, hcovers⟩ := h.reflects.get h.unspent hasks.2.1 hfound
        have hgrows : cluster.Grows none (cluster.get l c.config.quorum).cluster := by
          rw [(Cluster.get_ok hfound).2.2.2]
          exact Cluster.grows_readOut cluster l
        refine .inl ⟨c.putRequest l value found.context, by simp only [nextRequest, hgoal],
          hreflects, hunspent,
          ⟨hasks.1, (hgrows.readsMost_iff _).2 hasks.2.1,
            (hgrows.writesMost_iff _).2 hasks.2.2⟩, ?_⟩
        exact .inr ⟨l, value, found.context, hgoal, rfl, hcovers⟩
      · rw [hgoal] at hstore
        injection hstore with hl hvalue
        subst hl hvalue
        obtain ⟨stored, hstored, rfl⟩ := exists_ok_of_map hreply
        obtain ⟨hbody, hreflects⟩ := h.reflects.put h.unspent hasks.2.2 hcovers hstored
        exact .inr ⟨by simp only [nextRequest, hgoal], hbody, hreflects⟩
  | delete l =>
      obtain rfl := hr.eq_firstRequest (by simp [hgoal])
      simp only [firstRequest, hgoal] at hreply ⊢
      obtain ⟨done, hdone, rfl⟩ := exists_ok_of_map hreply
      exact .inr ⟨by simp only [nextRequest, hgoal], trivial,
        h.reflects.delete h.unspent hasks hdone⟩
  | keys bucket =>
      obtain rfl := hr.eq_firstRequest (by simp [hgoal])
      simp only [firstRequest, hgoal] at hreply ⊢
      obtain ⟨names, hnames, rfl⟩ := exists_ok_of_map hreply
      refine .inr ⟨by simp only [nextRequest, hgoal], h.reflects.listKeys hasks hnames, ?_⟩
      change (cluster.listKeys bucket).cluster.Reflects m
      rw [Cluster.listKeys_cluster]
      exact h.reflects

/-! ## Steps -/

theorem sound_settle_error {e : EngineError} (heq : c.settle w (.error e) = (w', c'))
    (h : c.Pursues m met goal w cluster) : c'.Sound m met goal w' := by
  have hsound : (c.settle w (.error e)).2.Sound m met goal (c.settle w (.error e)).1 := by
    unfold settle
    dsimp only
    split
    · exact ⟨cluster, h.congr rfl rfl rfl rfl rfl⟩
    · split_ifs
      · exact ⟨cluster, h.congr rfl rfl rfl rfl rfl⟩
      · exact ⟨cluster, h.congr rfl rfl rfl rfl rfl⟩
  rwa [heq] at hsound

theorem sound_proceed {deadline : Nat} {s : Pool.Standing}
    (heq : c.proceed w deadline s = (w', c')) (h : c.Pursues m met goal w cluster) :
    c'.Sound m met goal w' := by
  have hsound : (c.proceed w deadline s).2.Sound m met goal (c.proceed w deadline s).1 := by
    cases s with
    | refused => exact ⟨cluster, h.congr rfl rfl rfl rfl rfl⟩
    | held => exact ⟨cluster, h.congr rfl rfl rfl rfl rfl, .inl rfl, .inl rfl⟩
    | waits ticket => exact ⟨cluster, h.congr rfl rfl rfl rfl rfl⟩
  rwa [heq] at hsound

theorem sound_settle_ok {reply : Reply} (heq : c.settle w (.ok reply) = (w', c'))
    (hanswers : goal.Answers m reply) (hstands : w.Stands (goal.after m) met) :
    c'.Sound m met goal w' := by
  have hsound : (c.settle w (.ok reply)).2.Sound m met goal (c.settle w (.ok reply)).1 :=
    ⟨hanswers, hstands.quiet, hstands.reflects, hstands.met⟩
  rwa [heq] at hsound

/-- An attempt's request is served in the moment in which it reaches the engine. -/
theorem sound_arrives {flight : Flight} {deadline : Nat} (hpursues : c.Pursues m met goal w cluster)
    (hphase : c.phase = .working flight deadline) (hstage : flight.stage = .reaching false)
    (hexpects : c.Expects cluster flight.request) (hstep : c.step w = some (w', c')) :
    c'.Sound m met goal w' := by
  obtain ⟨hreply, hbackend, hchaos, hmetrics⟩ := World.serve_cluster hpursues.backend flight.request
  have hquiet : (w.serve flight.request).2.chaos.Quiet := hchaos ▸ hpursues.quiet
  have hmet : (w.serve flight.request).2.metrics.siblingsObserved = met :=
    (congrArg Metrics.siblingsObserved hmetrics).trans hpursues.met
  unfold step at hstep
  rw [hphase] at hstep
  dsimp only at hstep
  rw [Flight.step_reaching hpursues.quiet hstage hreply] at hstep
  cases hresult : (cluster.answer (.ofNat w.served) flight.request).1 with
  | error e =>
      rw [hresult] at hstep
      injection hstep with hstep
      rw [Cluster.answer_error hresult] at hbackend
      have hrelease : c.Pursues m met goal (release (w.serve flight.request).2 c) cluster :=
        hpursues.congr (hbackend.trans hpursues.backend.symm) hchaos
          (congrArg Metrics.siblingsObserved hmetrics) rfl rfl
      exact sound_settle_error hstep hrelease
  | ok reply =>
      rw [hresult] at hstep
      rcases hpursues.answer hexpects hresult with
        ⟨next, hnext, hreflects, hunspent, hasks, hexpects'⟩ | ⟨hnext, hanswers, hreflects⟩
      · simp only [hnext] at hstep
        injection hstep with hstep
        obtain ⟨rfl, rfl⟩ := Prod.mk.inj hstep
        exact ⟨_, ⟨hpursues.goal_eq, hbackend, hquiet, hmet, hreflects, hunspent, hasks⟩,
          .inl rfl, hexpects'⟩
      · simp only [hnext] at hstep
        injection hstep with hstep
        exact sound_settle_ok hstep hanswers ⟨hquiet, ⟨_, hbackend, hreflects⟩, hmet⟩

theorem sound_enters {flight : Flight} {deadline : Nat} (hpursues : c.Pursues m met goal w cluster)
    (hphase : c.phase = .working flight deadline) (hstage : flight.stage = .entering)
    (hexpects : c.Expects cluster flight.request) (hstep : c.step w = some (w', c')) :
    c'.Sound m met goal w' := by
  have hquiet := hpursues.quiet.count flight.request.kind
  unfold step at hstep
  rw [hphase] at hstep
  dsimp only at hstep
  rw [Flight.step_entering hpursues.quiet hstage] at hstep
  injection hstep with hstep
  obtain ⟨rfl, rfl⟩ := Prod.mk.inj hstep
  exact ⟨cluster, ⟨hpursues.goal_eq, hpursues.backend, hquiet, hpursues.met, hpursues.reflects,
    hpursues.unspent, hpursues.asks⟩, .inr rfl, hexpects⟩

theorem Sound.step (h : c.Sound m met goal w) (hstep : c.step w = some (w', c')) :
    c'.Sound m met goal w' := by
  cases hphase : c.phase with
  | idle =>
      simp only [Sound, hphase] at h
      obtain ⟨cluster, hpursues⟩ := h
      simp only [Call.step, hphase] at hstep
      injection hstep with hstep
      obtain ⟨rfl, rfl⟩ := Prod.mk.inj hstep
      have hcount : (w.count c.goal.counter).metrics.siblingsObserved =
          w.metrics.siblingsObserved := by
        cases c.goal <;> rfl
      exact ⟨cluster, hpursues.congr rfl rfl hcount rfl rfl⟩
  | ready =>
      simp only [Sound, hphase] at h
      obtain ⟨cluster, hpursues⟩ := h
      simp only [Call.step, hphase] at hstep
      injection hstep with hstep
      exact sound_proceed hstep (hpursues.congr rfl rfl rfl rfl rfl)
  | queued ticket deadline =>
      simp only [Sound, hphase] at h
      obtain ⟨cluster, hpursues⟩ := h
      simp only [Call.step, hphase] at hstep
      split at hstep
      · split_ifs at hstep
        injection hstep with hstep
        exact sound_settle_error hstep (hpursues.congr rfl rfl rfl rfl rfl)
      · injection hstep with hstep
        exact sound_proceed hstep (hpursues.congr rfl rfl rfl rfl rfl)
  | working flight deadline =>
      simp only [Sound, hphase] at h
      obtain ⟨cluster, hpursues, hstage | hstage, hexpects⟩ := h
      · exact sound_enters hpursues hphase hstage hexpects hstep
      · exact sound_arrives hpursues hphase hstage hexpects hstep
  | resting wake =>
      simp only [Sound, hphase] at h
      obtain ⟨cluster, hpursues⟩ := h
      simp only [Call.step, hphase] at hstep
      split_ifs at hstep
      injection hstep with hstep
      obtain ⟨rfl, rfl⟩ := Prod.mk.inj hstep
      exact ⟨cluster, hpursues.congr rfl rfl rfl rfl rfl⟩
  | ended result =>
      simp only [Call.step, hphase] at hstep
      exact absurd hstep (by simp)
  | dropped =>
      simp only [Call.step, hphase] at hstep
      exact absurd hstep (by simp)

theorem keeps_sound : Keeps fun w c => c.Sound m met goal w where
  step h hstep := h.step hstep
  pass time h := by
    unfold Sound at h ⊢
    split at h
    · exact ⟨h.1, h.2.quiet, h.2.reflects, h.2.met⟩
    · obtain ⟨cluster, hpursues, hstage, hexpects⟩ := h
      exact ⟨cluster, hpursues.congr rfl rfl rfl rfl rfl, hstage, hexpects⟩
    · obtain ⟨cluster, hpursues⟩ := h
      exact ⟨cluster, hpursues.congr rfl rfl rfl rfl rfl⟩

end Call

end SiblingStore
