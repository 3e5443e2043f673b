import SiblingStore.Proofs.Client.Balance
import SiblingStore.Proofs.Client.Effects
import SiblingStore.Proofs.Cluster.Whole

/-!
# Usable settings

An operation with validated settings asks a whole cluster only for what it can give, attempt
after attempt: its requests name a location, their quorums are in range, and a write that builds
on a read carries a context the cluster itself has written. So such an operation never ends
because a request was malformed or a quorum was not met.
-/

namespace SiblingStore

def EngineError.isRefusal : EngineError → Bool
  | malformed _ | quorumNotMet .. => true
  | timeout _ | unavailable _ | unsupported _ | storage _ => false

def OperationError.isRefusal (e : OperationError) : Bool :=
  e.engineError?.any EngineError.isRefusal

/-! ## Requests that fit -/

def Request.Fits (q : Quorum) : Request → Prop
  | .get l q' | .delete l q' => l.Named ∧ q' = q
  | .put p => p.location.Named ∧ p.quorum = q ∧ ∃ clock, Clock.ofBytes p.context = .ok clock
  | .listKeys bucket => bucket ≠ ""

/-- Whether a result turns nothing down, and its context can be read. -/
def ResultFits : Except EngineError Reply → Prop
  | .error e => e.isRefusal = false
  | .ok (.fetched found) => ∃ clock, Clock.ofBytes found.context = .ok clock
  | .ok (.put _) | .ok .deleted | .ok (.keys _) => True

variable {s : Settings} {k : Cluster} {w : World}

namespace Cluster

variable {settings : ClusterSettings} {k' : Cluster}

theorem Whole.of_isRead (h : k.Whole settings) (hread : k.IsRead k') : k'.Whole settings := by
  rcases hread with rfl | ⟨l, rfl⟩
  · exact h
  · exact h.readOut l

theorem Whole.answer (h : k.Whole settings) (stamp : Stamp) (r : Request) :
    (k.answer stamp r).2.Whole settings := by
  cases hversion : r.version? k stamp with
  | none => exact h.of_isRead (isRead_answer_of_none hversion)
  | some v => exact (h.write v).of_isRead (isRead_answer_of_some hversion)

theorem resultFits_answer (h : k.Whole s.cluster) (hsound : s.Sound) {r : Request}
    (hr : r.Fits (OperationConfig.ofSettings s.operation).quorum) (stamp : Stamp) :
    ResultFits (k.answer stamp r).1 := by
  cases r with
  | get l q =>
      obtain ⟨hl, rfl⟩ := hr
      obtain ⟨reply, clock, hresult, hclock⟩ := h.exists_get hl (hsound.inRange hsound.readQuorum)
      show ResultFits ((k.get l _).result.map .fetched)
      rw [hresult]
      exact ⟨clock, hclock⟩
  | put p =>
      obtain ⟨hl, hq, clock, hclock⟩ := hr
      have hrange := hsound.inRange hsound.writeQuorum
      rw [← hq] at hrange
      obtain ⟨reply, hresult⟩ := h.exists_put hl hrange hclock stamp
      show ResultFits ((k.put p stamp).result.map .put)
      rw [hresult]
      trivial
  | delete l q =>
      obtain ⟨hl, rfl⟩ := hr
      have hresult := h.delete_result hl (hsound.inRange hsound.writeQuorum) stamp
      show ResultFits ((k.delete l _ stamp).result.map fun _ => .deleted)
      rw [hresult]
      trivial
  | listKeys bucket =>
      have hlive : k.liveCount ≠ 0 := by
        have hread := hsound.readQuorum
        rw [h.liveCount_eq, h.size_eq]
        omega
      show ResultFits ((k.listKeys bucket).result.map .keys)
      unfold listKeys
      have hbucket : ¬bucket.isEmpty = true := by
        rw [String.isEmpty_iff]
        exact hr
      rw [if_neg hbucket, if_neg hlive]
      trivial

end Cluster

/-! ## Requests under way -/

def Chaos.Spares (c : Chaos) : Prop := ∀ kind, ∀ e ∈ c.queued.of kind, e.isRefusal = false

theorem Chaos.Spares.fault {c : Chaos} (h : c.Spares) (kind : RequestKind) (failing : Bool) :
    (∀ e, (c.fault kind failing).1 = some e → e.isRefusal = false) ∧
      (c.fault kind failing).2.Spares := by
  unfold Chaos.fault
  cases hqueued : c.queued.of kind with
  | nil =>
      refine ⟨?_, h⟩
      intro e he
      dsimp only at he
      split_ifs at he
      cases he
      rfl
  | cons e rest =>
      have hspares := h kind
      rw [hqueued] at hspares
      constructor
      · rintro e' ⟨⟩
        exact hspares e List.mem_cons_self
      · intro kind' e' he'
        have hset : (c.queued.set kind rest).of kind' =
            if kind = kind' then rest else c.queued.of kind' := by
          cases kind <;> cases kind' <;> rfl
        change e' ∈ (c.queued.set kind rest).of kind' at he'
        rw [hset] at he'
        split_ifs at he'
        · exact hspares e' (List.mem_cons_of_mem e he')
        · exact h kind' e' he'

/-- Whether a world has a whole cluster, with no faults in front of it that turn requests down. -/
structure World.Whole (settings : ClusterSettings) (w : World) : Prop where
  cluster : ∃ k, w.backend = .cluster k ∧ k.Whole settings
  spares : w.chaos.Spares

namespace Flight

def Progress.Fits (settings : ClusterSettings) (request : Request) : Progress → Prop
  | .moves f w => w.Whole settings ∧ f.request = request ∧ f.Unserved
  | .arrives result w => w.Whole settings ∧ ResultFits result
  | .waits => True

variable {f : Flight}

theorem fits_reach (hsound : s.Sound) (hw : w.Whole s.cluster)
    (hf : f.request.Fits (OperationConfig.ofSettings s.operation).quorum) :
    (f.reach w).Fits s.cluster f.request := by
  obtain ⟨⟨k, hcluster, hk⟩, hspares⟩ := hw
  obtain ⟨-, hbackend, hchaos, -⟩ := World.serve_cluster hcluster f.request
  rw [reach_cluster hcluster]
  refine ⟨⟨⟨_, hbackend, hk.answer _ _⟩, ?_⟩, Cluster.resultFits_answer hk hsound hf _⟩
  rw [hchaos]
  exact hspares

theorem fits_step (hsound : s.Sound) (hw : w.Whole s.cluster)
    (hf : f.request.Fits (OperationConfig.ofSettings s.operation).quorum)
    (hunserved : f.Unserved) : (f.step w).Fits s.cluster f.request := by
  unfold step
  cases hstage : f.stage with
  | entering =>
      dsimp only
      split_ifs
      · exact ⟨⟨hw.cluster, hw.spares⟩, rfl, nofun⟩
      · exact ⟨⟨hw.cluster, hw.spares⟩, rfl, nofun⟩
  | delayed wake failing =>
      dsimp only
      split_ifs
      · exact ⟨hw, rfl, nofun⟩
      · trivial
  | reaching failing =>
      obtain ⟨herror, hspares⟩ := hw.spares.fault f.request.kind failing
      dsimp only
      split
      · rename_i e chaos hfault
        rw [hfault] at herror hspares
        exact ⟨⟨hw.cluster, hspares⟩, herror e rfl⟩
      · rename_i chaos hfault
        rw [hfault] at hspares
        exact fits_reach hsound ⟨hw.cluster, hspares⟩ hf
  | clear => exact fits_reach hsound hw hf
  | answering result wake => exact absurd hstage (hunserved result wake)

end Flight

/-! ## Calls with such settings -/

def Goal.Named : Goal → Prop
  | .fetch l | .store l _ | .delete l => l.Named
  | .keys bucket => bucket ≠ ""

namespace Call

/-- Whether a call in this phase has not been turned down and will not be. -/
def Phase.Fits (q : Quorum) : Phase → Prop
  | .working flight _ => flight.request.Fits q ∧ flight.Unserved
  | .ended (.error e) => e.isRefusal = false
  | .ended (.ok _) | .idle | .ready | .queued .. | .resting _ | .dropped => True

structure Asks (s : Settings) (c : Call) : Prop where
  named : c.goal.Named
  quorum : c.config.quorum = (OperationConfig.ofSettings s.operation).quorum
  context : c.config.context = none

variable {c c' : Call} {w' : World} {settings : ClusterSettings} {q : Quorum}

theorem fits_firstRequest (h : c.Asks s) :
    c.firstRequest.Fits (OperationConfig.ofSettings s.operation).quorum := by
  have hnamed := h.named
  unfold firstRequest
  cases hgoal : c.goal with
  | fetch l | delete l =>
      rw [hgoal] at hnamed
      exact ⟨hnamed, h.quorum⟩
  | keys bucket =>
      rw [hgoal] at hnamed
      exact hnamed
  | store l value =>
      rw [hgoal] at hnamed
      rw [h.context]
      exact ⟨hnamed, h.quorum⟩

theorem fits_nextRequest (h : c.Asks s) {reply : Reply} (hreply : ResultFits (.ok reply))
    {r : Request} (hr : c.nextRequest reply = some r) :
    r.Fits (OperationConfig.ofSettings s.operation).quorum := by
  have hnamed := h.named
  unfold nextRequest at hr
  split at hr
  · rename_i l value found hgoal
    cases hr
    rw [hgoal] at hnamed
    exact ⟨hnamed, h.quorum, hreply⟩
  · cases hr

def GoesOn (settings : ClusterSettings) (q : Quorum) (next : World × Call) : Prop :=
  next.1.Whole settings ∧ next.2.phase.Fits q

theorem fits_settle (w : World) (c : Call) {result : Except EngineError Reply}
    (hresult : ResultFits result) : (settle w c result).2.phase.Fits q := by
  unfold settle
  cases result with
  | ok reply => trivial
  | error e =>
      dsimp only
      split
      · trivial
      · split_ifs
        · exact hresult
        · exact hresult

theorem goesOn_settle (hw : w.Whole settings) (q : Quorum) (c : Call)
    {result : Except EngineError Reply} (hresult : ResultFits result) :
    GoesOn settings q (settle w c result) := by
  obtain ⟨metrics, events, h⟩ := settle_fst w c result
  refine ⟨?_, fits_settle w c hresult⟩
  rw [h]
  exact ⟨hw.cluster, hw.spares⟩

theorem goesOn_proceed (hw : w.Whole settings) (h : c.firstRequest.Fits q) (deadline : Nat)
    (standing : Pool.Standing) : GoesOn settings q (proceed w c deadline standing) := by
  cases standing with
  | held => exact ⟨hw, h, Flight.unserved_start _⟩
  | waits ticket => exact ⟨hw, trivial⟩
  | refused => exact ⟨⟨hw.cluster, hw.spares⟩, rfl⟩

theorem goesOn_of_takes (hsound : s.Sound) (hw : w.Whole s.cluster) (hasks : c.Asks s)
    (hfits : c.phase.Fits (OperationConfig.ofSettings s.operation).quorum)
    {next : World × Call} (h : c.Takes w next) :
    GoesOn s.cluster (OperationConfig.ofSettings s.operation).quorum next := by
  have hfirst := fits_firstRequest hasks
  cases h with
  | begin | wake => exact ⟨⟨hw.cluster, hw.spares⟩, trivial⟩
  | request | claim =>
      apply goesOn_proceed
      · exact ⟨hw.cluster, hw.spares⟩
      · exact hfirst
  | leave | late =>
      apply goesOn_settle
      · exact ⟨hw.cluster, hw.spares⟩
      · rfl
  | @fly flight flight' deadline w' hphase hstep =>
      rw [hphase] at hfits
      have hgoes := flight.fits_step hsound hw hfits.1 hfits.2
      rw [hstep] at hgoes
      obtain ⟨hw', hrequest, hunserved⟩ := hgoes
      refine ⟨hw', ?_, hunserved⟩
      rw [hrequest]
      exact hfits.1
  | @receive flight deadline result w' hphase hstep =>
      rw [hphase] at hfits
      have hgoes := flight.fits_step hsound hw hfits.1 hfits.2
      rw [hstep] at hgoes
      obtain ⟨hw', hresult⟩ := hgoes
      have hreleased : (release w' c).Whole s.cluster := ⟨hw'.cluster, hw'.spares⟩
      cases result with
      | error e => exact goesOn_settle hreleased _ c hresult
      | ok reply =>
          unfold receive
          dsimp only
          split
          · rename_i r hr
            exact ⟨hw', fits_nextRequest hasks hresult hr, Flight.unserved_start r⟩
          · exact goesOn_settle hreleased _ c hresult

end Call

/-! ## Operations with such settings -/

namespace Operation

def Asks (s : Settings) : Operation → Prop
  | running call _ => call.goal.Named ∧ ∃ allow, call.config =
      { OperationConfig.ofSettings s.operation with allowSiblings := allow }
  | ended _ => True

def Fits (s : Settings) : Operation → Prop
  | running call conclude => call.Asks s ∧
      call.phase.Fits (OperationConfig.ofSettings s.operation).quorum ∧
      ∀ reply w, Fair id w (conclude reply w)
  | ended (.error e) => e.isRefusal = false
  | ended (.ok _) => True

end Operation

open Crowd

/-- Operations with such settings begin at any time and have their turns in any order, while
anything may happen to a world in between that leaves its cluster whole. -/
def serving (s : Settings) : Rules Operation where
  joins o := ∃ p : Pending Bool, p.Offered ∧ o = p.operation ∧ o.Asks s
  turn := Operation.Turns
  befalls _ w' := w'.Whole s.cluster

theorem fits_of_joins {o : Operation} (h : (serving s).joins o) : o.Fits s := by
  obtain ⟨p, hp, rfl, hasks⟩ := h
  have hfair := hp.isFair
  cases p with
  | refused e =>
      show e.engineError?.any EngineError.isRefusal = false
      rw [hfair]
      rfl
  | calls call conclude =>
      obtain ⟨hnamed, allow, hconfig⟩ := hasks
      refine ⟨⟨hnamed, ?_, ?_⟩, ?_, hfair.2⟩
      · rw [hconfig]
      · rw [hconfig]
        rfl
      · rw [hfair.1]
        trivial

theorem keep_serving (hsound : s.Sound) :
    (serving s).Keep (World.Whole s.cluster) (Operation.Fits s) where
  join := fits_of_joins
  turn := by
    intro w w' o o' hw hfits hturn
    cases hturn with
    | @step _ call call' conclude hstep =>
        obtain ⟨hasks, hphase, hfair⟩ := hfits
        obtain ⟨hw', hphase'⟩ :=
          Call.goesOn_of_takes hsound hw hasks hphase (Call.takes_of_step hstep)
        refine ⟨hw', ?_, hphase', hfair⟩
        rw [Call.eq_of_step hstep]
        exact ⟨hasks.named, hasks.quorum, hasks.context⟩
    | @conclude call conclude result hphase =>
        obtain ⟨-, hfits, hfair⟩ := hfits
        rw [hphase] at hfits
        cases result with
        | error e => exact ⟨hw, hfits⟩
        | ok reply =>
            obtain ⟨hstays, -, herror⟩ := hfair reply w
            refine ⟨⟨?_, ?_⟩, ?_⟩
            · obtain ⟨k, hcluster, hk⟩ := hw.cluster
              exact ⟨k, hstays.backend.trans hcluster, hk⟩
            · show (conclude reply w).2.chaos.Spares
              rw [hstays.chaos]
              exact hw.spares
            · show Operation.Fits s (.ended (conclude reply w).1)
              cases hresult : (conclude reply w).1 with
              | ok handed => trivial
              | error e =>
                  show e.engineError?.any EngineError.isRefusal = false
                  rw [herror e hresult]
                  rfl
  befall := fun _ hw' => hw'

/-! ## Clients -/

/-- Validated settings describe a client, whose pool stands behind the others and has the size
they ask for. -/
theorem Client.exists_ofSettings_of_validate {s : Settings} (h : s.validate = .ok ())
    (drawn : ClientId) (pools : List Pool) :
    ∃ c pools', ofSettings s drawn pools = .ok (c, pools') ∧
      pools <+: pools' ∧ pools'[c.pool]? = some (.ofSize s.poolSize) := by
  obtain ⟨id, hid⟩ : ∃ id, s.clientId.elim (.ok drawn) ClientId.ofHex = .ok id := by
    cases hname : s.clientId with
    | none => exact ⟨drawn, rfl⟩
    | some text =>
        have hsame : { s with clientId := some text } = s := by rw [← hname]
        exact ((s.validate_clientId text).1 (by rw [hsame]; exact h)).2
  refine ⟨_, _, by rw [ofSettings, hid], List.prefix_append pools _, ?_⟩
  exact List.getElem?_concat_length

namespace Settings

/-- Validated settings can be used: the name they accept for a client is one, the quorums of
their requests are in range, and no operation with them is turned down by a whole cluster. -/
theorem usable_of_validate (s : Settings) :
    (∀ text, { s with clientId := some text }.validate = .ok () ↔
      { s with clientId := none }.validate = .ok () ∧ ∃ id, ClientId.ofHex text = .ok id) ∧
    (∀ text, (∃ id, ClientId.ofHex text = .ok id) ↔
      text.length = 8 ∧ ∀ c ∈ text.toList, Text.Hex.isDigit c = true) ∧
    (∀ text id, ClientId.ofHex text = .ok id → id.toHex = text.toLower) ∧
    (s.validate = .ok () → ∀ directory places node k events,
      places.length = s.cluster.replicas →
      Cluster.openAt s.cluster directory places node = .ok (k, events) →
      Quorum.standard.InRange k.size k.settings.readQuorum ∧
      Quorum.standard.InRange k.size k.settings.writeQuorum ∧
      (OperationConfig.ofSettings s.operation).quorum.InRange k.size k.settings.readQuorum ∧
      (OperationConfig.ofSettings s.operation).quorum.InRange k.size k.settings.writeQuorum ∧
      ∀ (w : World) (crowd : Crowd Operation), w.backend = .cluster k → w.chaos.Spares →
        Reaches (serving s) ⟨w, []⟩ crowd →
        ∀ e, .ended (.error e) ∈ crowd.members → e.isRefusal = false) := by
  refine ⟨s.validate_clientId, ClientId.exists_ofHex_iff, fun _ _ => ClientId.toHex_of_ofHex, ?_⟩
  intro hvalidate directory places node k events hplaces hopen
  have hsound := sound_of_validate hvalidate
  have hwhole := Cluster.whole_openAt hplaces hopen
  rw [hwhole.size_eq, hwhole.settings_eq]
  refine ⟨hsound.readQuorum, hsound.writeQuorum, hsound.inRange hsound.readQuorum,
    hsound.inRange hsound.writeQuorum, ?_⟩
  intro w crowd hbackend hspares hreaches e he
  have hw : w.Whole s.cluster := ⟨⟨k, hbackend, hwhole⟩, hspares⟩
  exact ((keep_serving hsound).reaches hw (by simp) hreaches).2 _ he

theorem fault?_replicaPath (i : Nat) (hi : i < 3) :
    Disk.fault? (Cluster.replicaPath "d" i) = none ∧
      Disk.fault? (Store.logPath (Cluster.replicaPath "d" i)) = none := by
  unfold Disk.fault? Disk.names
  obtain rfl | rfl | rfl : i = 0 ∨ i = 1 ∨ i = 2 := by omega
  all_goals
    simp (disch := decide +kernel) only [Text.splitOn_eq, Text.splitOnAux_skip,
      Text.splitOnAux_cut, Text.splitOnAux_end]
    decide +kernel

/-- Settings with a named client and all replicas asked, on an engine that is out of reach. -/
def remote : Settings where
  clientId := some "0aF9c3D1"
  operation := { retries := 1, quorum := some 3, backoff := .none }

theorem usable_of_validate_remote :
    remote.validate = .ok () ∧ ∃ events crowd,
      Cluster.openAt remote.cluster "d" [.absent, .absent, .absent] default =
        .ok (.empty remote.cluster default, events) ∧
      Reaches (serving remote) ⟨.ofBackend (.cluster (.empty remote.cluster default))
        { Chaos.none with failing := true }, []⟩ crowd ∧
      ∃ e, .ended (.error e) ∈ crowd.members ∧ e.isRefusal = false := by
  have hvalidate : remote.validate = .ok () := by decide +kernel
  obtain ⟨events, hopen⟩ := Cluster.openAt_absent remote.cluster default
    fault?_replicaPath
  have hjoins : (serving remote).joins (Pending.operation (((default : Client).fetch ⟨"b", "k"⟩
      (OperationConfig.ofSettings remote.operation)).map fun _ => false)) :=
    ⟨_, .fetchRaw _ _ _, rfl, ⟨by decide, by decide⟩, false, rfl⟩
  have hfirst : Reaches (serving remote)
      ⟨.ofBackend (.cluster (.empty remote.cluster default))
        { Chaos.none with failing := true }, []⟩
      ⟨.ofBackend (.cluster (.empty remote.cluster default))
        { Chaos.none with failing := true }, [.running _ _]⟩ :=
    .single (.join hjoins)
  have hended : (((default : Client).call (.fetch ⟨"b", "k"⟩)
      (OperationConfig.ofSettings remote.operation)).poll 9
      (.ofBackend (.cluster (.empty remote.cluster default))
        { Chaos.none with failing := true })).2.phase =
      .ended (.error (.exhausted .get (.key ⟨"b", "k"⟩) 2
        (.unavailable "chaos: random failure"))) := rfl
  have hover := Operation.reaches_ended rfl 9 hfirst hended
  have hspares : ({ Chaos.none with failing := true } : Chaos).Spares := by
    intro kind e he
    cases kind <;> cases he
  obtain ⟨-, -, -, -, husable⟩ := (usable_of_validate remote).2.2.2 hvalidate "d"
    [.absent, .absent, .absent] default _ events rfl hopen
  exact ⟨hvalidate, events, _, hopen, hover, _, List.mem_singleton_self _,
    husable _ _ rfl hspares hover _ (List.mem_singleton_self _)⟩

end Settings

end SiblingStore
