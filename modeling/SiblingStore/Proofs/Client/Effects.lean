import SiblingStore.Proofs.Client.Calls
import SiblingStore.Proofs.Client.Steps
import SiblingStore.Proofs.Simulation.Activity
import SiblingStore.Proofs.Simulation.Advance

/-!
# What a store does to the replicas

While a store is under way, anything may happen to the world around it. Of its own
steps only the one in which a write reaches the cluster and is acknowledged hands the
replicas anything, and that step is its last.
-/

namespace SiblingStore

/-! ## What a step brings -/

def Request.version? (r : Request) (k : Cluster) (stamp : Stamp) : Option Version :=
  match r with
  | .put p => k.version? (.put p stamp)
  | .delete l q => k.version? (.delete l q stamp)
  | .get .. | .listKeys _ => none

namespace Cluster

variable {k : Cluster} {stamp : Stamp}

theorem version?_of_answer_error {r : Request} {e : EngineError}
    (h : (k.answer stamp r).1 = .error e) : r.version? k stamp = none := by
  cases r with
  | get l q | listKeys bucket => rfl
  | put p => simp only [Request.version?, version?, eq_error_of_map h]
  | delete l q => simp only [Request.version?, version?, eq_error_of_map h]

theorem version?_of_answer_put {p : PutRequest} {reply : Reply}
    (h : (k.answer stamp (.put p)).1 = .ok reply) :
    ∃ v, (Request.put p).version? k stamp = some v ∧ v.location = p.location ∧
      v.value = p.value ∧ v.tombstone = false := by
  obtain ⟨stored, hstored, -⟩ := exists_ok_of_map h
  obtain ⟨context, hcontext, -⟩ := put_ok hstored
  refine ⟨k.putVersion p context stamp, ?_, rfl, rfl, rfl⟩
  simp only [Request.version?, version?, hstored, hcontext]

/-- Whether a cluster has become another by being read once at most. -/
def IsRead (k k' : Cluster) : Prop := k' = k ∨ ∃ l, k' = k.readOut l

theorem isRead_refl (k : Cluster) : k.IsRead k := .inl rfl

theorem isRead_answer_of_none {r : Request} (h : r.version? k stamp = none) :
    k.IsRead (k.answer stamp r).2 := by
  cases hresult : (k.answer stamp r).1 with
  | error e => exact .inl (answer_error hresult)
  | ok reply =>
      cases r with
      | get l q =>
          obtain ⟨found, hfound, -⟩ := exists_ok_of_map hresult
          exact .inr ⟨l, (get_ok hfound).2.2.2⟩
      | put p =>
          obtain ⟨v, hv, -⟩ := version?_of_answer_put hresult
          rw [h] at hv
          cases hv
      | delete l q =>
          obtain ⟨done, hdone, -⟩ := exists_ok_of_map hresult
          simp [Request.version?, version?, hdone] at h
      | listKeys bucket => exact .inl (listKeys_cluster k bucket)

theorem isRead_answer_of_some {r : Request} {v : Version} (h : r.version? k stamp = some v) :
    (k.write v).IsRead (k.answer stamp r).2 := by
  cases r with
  | get l q | listKeys bucket => cases h
  | put p =>
      obtain ⟨context, reply, hcontext, hreply, rfl⟩ := version?_put h
      change (k.write _).IsRead (k.put p stamp).cluster
      rw [cluster_of_put hreply hcontext]
      split_ifs
      · exact .inr ⟨p.location, rfl⟩
      · exact isRead_refl _
  | delete l q =>
      obtain ⟨hresult, rfl⟩ := version?_delete h
      exact .inl (delete_ok hresult).2.2

end Cluster

namespace Flight

def reaches (f : Flight) (w : World) : Bool :=
  match f.stage with
  | .clear => true
  | .reaching failing => (w.chaos.fault f.request.kind failing).1.isNone
  | .entering | .delayed .. | .answering .. => false

def Unserved (f : Flight) : Prop := ∀ result wake, f.stage ≠ .answering result wake

theorem unserved_start (r : Request) : (start r).Unserved := by
  intro result wake h
  cases h

variable {f : Flight} {w : World} {k : Cluster}

theorem reach_cluster (hcluster : w.backend = .cluster k) :
    f.reach w = .arrives (k.answer (.ofNat w.served) f.request).1 (w.serve f.request).2 := by
  unfold reach
  dsimp only
  rw [(World.serve_cluster hcluster f.request).1]
  rfl

/-- A request either leaves the cluster alone or is served by it at once. -/
theorem step_cluster (f : Flight) (hcluster : w.backend = .cluster k) :
    (f.reaches w = false ∧
      (f.step w = .waits ∨
        (∃ f' w', f.step w = .moves f' w' ∧ f'.request = f.request ∧ f'.Unserved ∧
          w'.backend = .cluster k) ∨
        ∃ result w', f.step w = .arrives result w' ∧ w'.backend = .cluster k ∧
          (f.Unserved → ∃ e, result = .error e))) ∨
    (f.reaches w = true ∧
      ∃ w', f.step w = .arrives (k.answer (.ofNat w.served) f.request).1 w' ∧
        w'.backend = .cluster (k.answer (.ofNat w.served) f.request).2) := by
  unfold step reaches
  cases hstage : f.stage with
  | entering =>
      dsimp only
      refine .inl ⟨rfl, .inr (.inl ?_)⟩
      split_ifs
      · exact ⟨_, _, rfl, rfl, nofun, hcluster⟩
      · exact ⟨_, _, rfl, rfl, nofun, hcluster⟩
  | delayed wake failing =>
      dsimp only
      refine .inl ⟨rfl, ?_⟩
      split_ifs
      · exact .inr (.inl ⟨_, _, rfl, rfl, nofun, hcluster⟩)
      · exact .inl rfl
  | reaching failing =>
      dsimp only
      rcases w.chaos.fault f.request.kind failing with ⟨fault, chaos⟩
      cases fault with
      | some e =>
          -- an injected error comes in place of the engine's reply
          exact .inl ⟨rfl, .inr (.inr ⟨_, _, rfl, hcluster, fun _ => ⟨e, rfl⟩⟩)⟩
      | none =>
          have hcalm : { w with chaos := chaos }.backend = .cluster k := hcluster
          exact .inr ⟨rfl, _, reach_cluster hcalm, (World.serve_cluster hcalm f.request).2.1⟩
  | clear =>
      exact .inr ⟨rfl, _, reach_cluster hcluster, (World.serve_cluster hcluster f.request).2.1⟩
  | answering result wake =>
      dsimp only
      refine .inl ⟨rfl, ?_⟩
      split_ifs
      · exact .inr (.inr ⟨_, _, rfl, hcluster, fun h => absurd hstage (h result wake)⟩)
      · exact .inl rfl

end Flight

namespace Call

variable {w w' : World} {c c' : Call} {k : Cluster}

/-- The version that a step of a call brings the cluster, if it writes one. -/
def brings (c : Call) (w : World) : Option Version :=
  match c.phase, w.cluster? with
  | .working flight _, some k =>
    if flight.reaches w then flight.request.version? k (.ofNat w.served) else none
  | _, _ => none

theorem brings_of_not_working (h : ∀ flight deadline, c.phase ≠ .working flight deadline) :
    c.brings w = none := by
  unfold brings
  split
  · rename_i flight deadline k hphase hcluster
    exact absurd hphase (h flight deadline)
  · rfl

theorem brings_of_working {flight : Flight} {deadline : Nat} (hcluster : w.backend = .cluster k)
    (hphase : c.phase = .working flight deadline) :
    c.brings w = if flight.reaches w then flight.request.version? k (.ofNat w.served)
      else none := by
  unfold brings World.cluster?
  rw [hphase, hcluster]

/-- A step of a call with a request under way leaves the cluster alone, and hears at most of
an error, or it has the request served. -/
theorem step_working {flight : Flight} {deadline : Nat} (hcluster : w.backend = .cluster k)
    (hphase : c.phase = .working flight deadline) (h : c.step w = some (w', c')) :
    (flight.reaches w = false ∧ w'.backend = .cluster k ∧
      ((∃ flight', flight'.request = flight.request ∧ flight'.Unserved ∧
          c' = { c with phase := .working flight' deadline }) ∨
        ∃ result w₁, receive w₁ c deadline result = (w', c') ∧
          (flight.Unserved → ∃ e, result = .error e))) ∨
    (flight.reaches w = true ∧
      w'.backend = .cluster (k.answer (.ofNat w.served) flight.request).2 ∧
      ∃ w₁, receive w₁ c deadline (k.answer (.ofNat w.served) flight.request).1 = (w', c')) := by
  have hreceived {w₁ : World} {result : Except EngineError Reply} {k' : Cluster}
      (hreceive : receive w₁ c deadline result = (w', c')) (hbackend : w₁.backend = .cluster k') :
      w'.backend = .cluster k' := by
    have hkept := receive_backend w₁ c deadline result
    rw [hreceive] at hkept
    exact hkept.trans hbackend
  rcases flight.step_cluster hcluster with
    ⟨hreaches, hwaits | ⟨flight', w₁, hmoves, hrequest, hunserved, hbackend⟩ |
      ⟨result, w₁, harrives, hbackend, herror⟩⟩ | ⟨hreaches, w₁, harrives, hbackend⟩
  · by_cases hdeadline : deadline ≤ w.now
    · rw [step_late hphase hwaits hdeadline] at h
      injection h with h
      exact .inl ⟨hreaches, hreceived h hcluster, .inr ⟨_, _, h, fun _ => ⟨_, rfl⟩⟩⟩
    · rw [step_waits hphase hwaits (by omega)] at h
      cases h
  · rw [step_moves hphase hmoves] at h
    cases h
    exact .inl ⟨hreaches, hbackend, .inl ⟨flight', hrequest, hunserved, rfl⟩⟩
  · rw [step_arrives hphase harrives] at h
    injection h with h
    exact .inl ⟨hreaches, hreceived h hbackend, .inr ⟨_, _, h, herror⟩⟩
  · rw [step_arrives hphase harrives] at h
    injection h with h
    exact .inr ⟨hreaches, hreceived h hbackend, _, h⟩

/-- In a step of a call the cluster is read at most, besides taking what the step brings. -/
theorem step_effect (hcluster : w.backend = .cluster k) (h : c.step w = some (w', c')) :
    ∃ k', w'.backend = .cluster k' ∧ (∀ v, c.brings w = some v → (k.write v).IsRead k') ∧
      (c.brings w = none → k.IsRead k') := by
  by_cases hworking : ∃ flight deadline, c.phase = .working flight deadline
  · obtain ⟨flight, deadline, hphase⟩ := hworking
    rw [brings_of_working hcluster hphase]
    rcases step_working hcluster hphase h with ⟨hreaches, hbackend, -⟩ | ⟨hreaches, hbackend, -⟩
    · rw [hreaches]
      exact ⟨k, hbackend, nofun, fun _ => Cluster.isRead_refl k⟩
    · rw [hreaches, if_pos rfl]
      exact ⟨_, hbackend, fun v => Cluster.isRead_answer_of_some, Cluster.isRead_answer_of_none⟩
  · have hidle : ∀ flight deadline, c.phase ≠ .working flight deadline :=
      fun flight deadline hphase => hworking ⟨flight, deadline, hphase⟩
    rw [brings_of_not_working hidle]
    exact ⟨k, (step_unheard hidle h).1.trans hcluster, nofun, fun _ => Cluster.isRead_refl k⟩

/-! ## A store from its start to its end -/

def Sends (c : Call) (l : Location) (value : Bytes) (r : Request) : Prop :=
  (∃ q, r = .get l q) ∨ ∃ context, r = c.putRequest l value context

/-- What a store has brought the replicas: nothing until it has succeeded, one version then. -/
def Brought (l : Location) (value : Bytes) (vs : List Version) (c : Call) : Prop :=
  c.goal = .store l value ∧
    match c.phase with
    | .ended (.ok _) =>
      ∃ v, vs = [v] ∧ v.location = l ∧ v.value = value ∧ v.tombstone = false
    | .working flight _ => vs = [] ∧ flight.Unserved ∧ c.Sends l value flight.request
    | _ => vs = []

variable {l : Location} {value : Bytes} {vs : List Version}

theorem sends_firstRequest (hgoal : c.goal = .store l value) :
    c.Sends l value c.firstRequest := by
  unfold firstRequest
  rw [hgoal]
  dsimp only
  split
  · exact .inr ⟨_, rfl⟩
  · exact .inl ⟨_, rfl⟩

theorem brought_of_unheard (hgoal : c.goal = .store l value) (h : c.Unheard) :
    c.Brought l value [] := by
  refine ⟨hgoal, ?_⟩
  unfold Unheard at h
  cases hphase : c.phase with
  | working flight deadline =>
      rw [hphase] at h
      exact ⟨rfl, h ▸ Flight.unserved_start _, h ▸ sends_firstRequest hgoal⟩
  | ended result =>
      rw [hphase] at h
      obtain ⟨e, rfl⟩ := h
      rfl
  | idle | ready | queued _ _ | resting _ | dropped => rfl

theorem Brought.eq_nil (h : c.Brought l value vs) (hended : ∀ result, c.phase ≠ .ended result) :
    vs = [] := by
  obtain ⟨-, h⟩ := h
  split at h
  · rename_i reply hphase
    exact absurd hphase (hended _)
  · exact h.1
  · exact h

theorem brought_receive (hgoal : c.goal = .store l value) {r : Request}
    (hsends : c.Sends l value r) {w₁ : World} {deadline : Nat} {stamp : Stamp}
    (hreceive : receive w₁ c deadline (k.answer stamp r).1 = (w', c')) :
    c'.Brought l value (r.version? k stamp).toList := by
  have hcall : (receive w₁ c deadline (k.answer stamp r).1).2 = c' := congrArg Prod.snd hreceive
  cases hresult : (k.answer stamp r).1 with
  | error e =>
      rw [hresult] at hcall
      rw [Cluster.version?_of_answer_error hresult, ← hcall]
      refine brought_of_unheard ?_ (unheard_settle (release w₁ c) c e)
      change (settle (release w₁ c) c (.error e)).2.goal = _
      rw [settle_snd]
      exact hgoal
  | ok reply =>
      rw [hresult] at hcall
      rcases hsends with ⟨q, rfl⟩ | ⟨context, rfl⟩
      · obtain ⟨found, -, rfl⟩ := exists_ok_of_map hresult
        have hnext : c.nextRequest (.fetched found) =
            some (c.putRequest l value found.context) := by
          simp only [nextRequest, hgoal]
        simp only [receive, hnext] at hcall
        rw [← hcall]
        exact ⟨hgoal, rfl, Flight.unserved_start _, .inr ⟨found.context, rfl⟩⟩
      · obtain ⟨stored, -, rfl⟩ := exists_ok_of_map hresult
        obtain ⟨v, hv, hlocation, hvalue, hliving⟩ := Cluster.version?_of_answer_put hresult
        have hnext : c.nextRequest (.put stored) = none := by
          simp only [nextRequest, hgoal]
        simp only [receive, hnext] at hcall
        rw [putRequest, hv, ← hcall]
        exact ⟨hgoal, v, rfl, hlocation, hvalue, hliving⟩

/-- An acknowledged write is the last thing a store does. -/
theorem Brought.step (h : c.Brought l value vs) (hcluster : w.backend = .cluster k)
    (hstep : c.step w = some (w', c')) : c'.Brought l value (vs ++ (c.brings w).toList) := by
  have hgoal : c'.goal = .store l value := by
    rw [eq_of_step hstep]
    exact h.1
  -- a call that takes a step has not ended, so it has brought nothing yet
  have hnil : vs = [] := h.eq_nil fun result hphase => by
    rw [step_ended hphase] at hstep
    cases hstep
  subst hnil
  rw [List.nil_append]
  by_cases hworking : ∃ flight deadline, c.phase = .working flight deadline
  · obtain ⟨flight, deadline, hphase⟩ := hworking
    obtain ⟨hstore, hflight⟩ := h
    rw [hphase] at hflight
    obtain ⟨-, hunserved, hsends⟩ := hflight
    rw [brings_of_working hcluster hphase]
    rcases step_working hcluster hphase hstep with
      ⟨hreaches, -, ⟨flight', hrequest, hunserved', rfl⟩ | ⟨result, w₁, hreceive, herror⟩⟩ |
      ⟨hreaches, -, w₁, hreceive⟩
    · rw [hreaches]
      refine ⟨hgoal, rfl, hunserved', ?_⟩
      rw [hrequest]
      exact hsends
    · rw [hreaches]
      obtain ⟨e, rfl⟩ := herror hunserved
      have hunheard := unheard_settle (release w₁ c) c e
      change settle (release w₁ c) c (.error e) = _ at hreceive
      rw [hreceive] at hunheard
      exact brought_of_unheard hgoal hunheard
    · rw [hreaches, if_pos rfl]
      exact brought_receive hstore hsends hreceive
  · have hidle : ∀ flight deadline, c.phase ≠ .working flight deadline :=
      fun flight deadline hphase => hworking ⟨flight, deadline, hphase⟩
    rw [brings_of_not_working hidle]
    exact brought_of_unheard hgoal (step_unheard hidle hstep).2

/-- What can happen while a call is under way, with the versions that its steps bring. In
between the world changes in any way that leaves a cluster to ask. -/
inductive History (w₀ : World) (c₀ : Call) : World → Call → List Version → Prop where
  | start : History w₀ c₀ w₀ c₀ []
  | own {w w' : World} {c c' : Call} {vs : List Version} : History w₀ c₀ w c vs →
      c.step w = some (w', c') → History w₀ c₀ w' c' (vs ++ (c.brings w).toList)
  | other {w w' : World} {c : Call} {vs : List Version} {k : Cluster} : History w₀ c₀ w c vs →
      w'.backend = .cluster k → History w₀ c₀ w' c vs

variable {w₀ : World} {c₀ : Call}

theorem History.exists_cluster (h : History w₀ c₀ w c vs) (hcluster : w₀.backend = .cluster k) :
    ∃ k', w.backend = .cluster k' := by
  induction h with
  | start => exact ⟨k, hcluster⟩
  | own _ hstep ih =>
      obtain ⟨k₁, hcluster₁⟩ := ih
      obtain ⟨k', hcluster', -⟩ := step_effect hcluster₁ hstep
      exact ⟨k', hcluster'⟩
  | other _ hcluster' _ => exact ⟨_, hcluster'⟩

theorem History.brought (h : History w₀ c₀ w c vs) (hcluster : w₀.backend = .cluster k)
    (hstart : c₀.Brought l value []) : c.Brought l value vs := by
  induction h with
  | start => exact hstart
  | own h hstep ih =>
      obtain ⟨k', hcluster'⟩ := h.exists_cluster hcluster
      exact ih.step hcluster' hstep
  | other _ _ ih => exact ih

theorem keeps_history (hcluster : w₀.backend = .cluster k) :
    Keeps fun w c => ∃ vs, History w₀ c₀ w c vs where
  step := fun ⟨_, h⟩ hstep => ⟨_, h.own hstep⟩
  pass := fun _ ⟨vs, h⟩ => by
    obtain ⟨k', hcluster'⟩ := h.exists_cluster hcluster
    exact ⟨vs, h.other hcluster'⟩

/-- A run in which nothing but time passes in between is one of the histories. -/
theorem exists_history_run (hcluster : w₀.backend = .cluster k) (c₀ : Call) :
    ∃ w c vs, History w₀ c₀ w c vs ∧
      ∀ {ρ : Type} (conclude : Except OperationError Reply → World → ρ × World),
        Activity.run w₀ (.call c₀ conclude) =
          ((Activity.concluded conclude w c).2.result?, (Activity.concluded conclude w c).1) := by
  obtain ⟨w, c, ⟨vs, h⟩, hrun⟩ := Activity.run_call (keeps_history hcluster) ⟨[], .start⟩
  exact ⟨w, c, vs, h, hrun⟩

end Call

/-- A store that succeeds has brought the replicas its value in one of its steps and
nothing in the others; one that fails has brought them nothing. -/
theorem store_takes_effect_once {w₀ w : World} {k : Cluster} (hcluster : w₀.backend = .cluster k)
    (client : Client) (l : Location) (value : Bytes) (config : OperationConfig) {c : Call}
    {vs : List Version} (h : Call.History w₀ (client.call (.store l value) config) w c vs)
    {result : Except OperationError Reply} (hended : c.phase = .ended result) :
    (∀ reply, result = .ok reply →
      ∃ v, vs = [v] ∧ v.location = l ∧ v.value = value ∧ v.tombstone = false) ∧
    (∀ e, result = .error e → vs = []) ∧
    (∀ {w₁ w₂ : World} {c₁ c₂ : Call} {k₁ : Cluster}, w₁.backend = .cluster k₁ →
      c₁.step w₁ = some (w₂, c₂) →
      ∃ k₂, w₂.backend = .cluster k₂ ∧
        (∀ v, c₁.brings w₁ = some v → (k₁.write v).IsRead k₂) ∧
        (c₁.brings w₁ = none → k₁.IsRead k₂)) ∧
    (∀ (k : Cluster) l q e, (k.get l q).result = .error e → (k.get l q).cluster = k) ∧
    (∀ (k : Cluster) r stamp e, (k.put r stamp).result = .error e →
      (k.put r stamp).cluster = k) ∧
    ∀ (k : Cluster) l q stamp e, (k.delete l q stamp).result = .error e →
      (k.delete l q stamp).cluster = k := by
  have hbrought := h.brought hcluster (Call.brought_of_unheard rfl trivial)
  obtain ⟨-, hbrought⟩ := hbrought
  rw [hended] at hbrought
  refine ⟨?_, ?_, Call.step_effect, fun k l q e => Cluster.get_error,
    fun k r stamp e => Cluster.put_error, fun k l q stamp e => Cluster.delete_error⟩
  · rintro reply rfl
    exact hbrought
  · rintro e rfl
    exact hbrought

def Call.reply? (c : Call) : Option Reply :=
  match c.phase with
  | .ended result => result.toOption
  | _ => none

theorem Call.exists_reply {c : Call} (h : c.reply?.isSome = true) :
    ∃ reply, c.phase = .ended (.ok reply) := by
  unfold reply? at h
  split at h
  · rename_i result hphase
    cases result with
    | error e => cases h
    | ok reply => exact ⟨reply, hphase⟩
  · cases h

/-- A cluster of three with one down, behind an error that is queued for a read. -/
def World.shaken : World :=
  .ofBackend (.cluster ((Cluster.empty {} default).setUp 1 false))
    (Chaos.none.failNext .get 1 (.unavailable "down"))

def OperationConfig.restless : OperationConfig := { OperationConfig.standard with backoff := .none }

theorem store_takes_effect_once_shaken :
    ∃ w c vs, Call.History (.ofBackend (.cluster (.empty {} default)) .none)
        ((default : Client).call (.store ⟨"b", "k"⟩ [7]) .restless) w c vs ∧
      c.attempts = 2 ∧ ∃ v, vs = [v] ∧ v.location = ⟨"b", "k"⟩ ∧ v.value = [7] ∧
        v.tombstone = false := by
  have hcluster : (World.ofBackend (.cluster (.empty {} default)) .none).backend =
      .cluster (.empty {} default) := rfl
  obtain ⟨vs, h⟩ := (Call.keeps_history hcluster).poll (w := .shaken)
    (c := (default : Client).call (.store ⟨"b", "k"⟩ [7]) .restless) ⟨[], .other .start rfl⟩ 24
  have hattempts : (((default : Client).call (.store ⟨"b", "k"⟩ [7]) .restless).poll 24
      .shaken).2.attempts = 2 := by
    decide +kernel
  obtain ⟨reply, hphase⟩ : ∃ reply, (((default : Client).call (.store ⟨"b", "k"⟩ [7])
      .restless).poll 24 .shaken).2.phase = .ended (.ok reply) := by
    apply Call.exists_reply
    decide +kernel
  exact ⟨_, _, vs, h, hattempts,
    (store_takes_effect_once hcluster default ⟨"b", "k"⟩ [7] .restless h hphase).1 reply rfl⟩

end SiblingStore
