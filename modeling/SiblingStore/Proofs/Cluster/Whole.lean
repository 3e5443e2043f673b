import SiblingStore.Proofs.Cluster.Requests
import SiblingStore.Proofs.Settings.Validation
import SiblingStore.Proofs.Store.Recovery

/-!
# Whole clusters

A cluster is whole when it has as many replicas as its settings say and all of them are up. It
stays whole through all requests, and meets every request for a named location whose quorum lies
between one and the number of replicas.
-/

namespace SiblingStore

def Location.Named (l : Location) : Prop := l.bucket ≠ "" ∧ l.key ≠ ""

/-- Whether a number of replicas can give the answers wanted, and at least one is. -/
def Quorum.InRange (q : Quorum) (replicas standardCount : Nat) : Prop :=
  0 < q.required replicas standardCount ∧ q.required replicas standardCount ≤ replicas

theorem Settings.Sound.inRange {s : Settings} (h : s.Sound) {standardCount : Nat}
    (hstandard : 0 < standardCount ∧ standardCount ≤ s.cluster.replicas) :
    (OperationConfig.ofSettings s.operation).quorum.InRange s.cluster.replicas standardCount := by
  have hquorum := h.quorum
  unfold OperationConfig.ofSettings Quorum.InRange
  cases hasked : s.operation.quorum with
  | none => exact hstandard
  | some n =>
      rw [hasked] at hquorum
      exact hquorum n rfl

namespace Cluster

structure Whole (settings : ClusterSettings) (k : Cluster) : Prop where
  settings_eq : k.settings = settings
  size_eq : k.size = settings.replicas
  up : ∀ r ∈ k.replicas, r.up = true

variable {settings : ClusterSettings} {k : Cluster} {l : Location}

/-! ## What keeps a cluster whole -/

theorem openReplicas_ok {directory : String} {i : Nat} {places : List Disk.Place}
    {opened : List Replica × List Event} (h : openReplicas directory i places = .ok opened) :
    opened.1.length = places.length ∧ ∀ r ∈ opened.1, r.up = true := by
  induction places generalizing i opened with
  | nil =>
      cases h
      exact ⟨rfl, fun _ hr => absurd hr List.not_mem_nil⟩
  | cons place places ih =>
      unfold openReplicas at h
      split at h
      · cases h
      · cases hrest : openReplicas directory (i + 1) places with
        | error e =>
            rw [hrest] at h
            cases h
        | ok rest =>
            rw [hrest] at h
            cases h
            obtain ⟨hlength, hup⟩ := ih hrest
            refine ⟨congrArg (· + 1) hlength, ?_⟩
            intro r hr
            rcases List.mem_cons.1 hr with rfl | hr
            · rfl
            · exact hup r hr

theorem whole_openAt {directory : String} {places : List Disk.Place} {node : ClientId}
    {events : List Event} (hplaces : places.length = settings.replicas)
    (h : openAt settings directory places node = .ok (k, events)) : k.Whole settings := by
  unfold openAt at h
  split at h
  · cases h
  · rename_i replicas opening hopened
    cases h
    obtain ⟨hlength, hup⟩ := openReplicas_ok hopened
    exact ⟨rfl, hlength.trans hplaces, hup⟩

theorem openReplicas_absent {directory : String} {i n : Nat}
    (h : ∀ j, i ≤ j → j < i + n → Disk.fault? (replicaPath directory j) = none ∧
      Disk.fault? (Store.logPath (replicaPath directory j)) = none) :
    ∃ events, openReplicas directory i (List.replicate n .absent) =
      .ok (List.replicate n ⟨.empty, true⟩, events) := by
  induction n generalizing i with
  | zero => exact ⟨[], rfl⟩
  | succ n ih =>
      obtain ⟨hdirectory, hpath⟩ := h i le_rfl (by omega)
      obtain ⟨events, hfirst⟩ := Store.openAt_absent hdirectory hpath
      obtain ⟨events', hrest⟩ := ih (i := i + 1) fun j _ _ => h j (by omega) (by omega)
      rw [List.replicate_succ]
      unfold openReplicas
      rw [hfirst]
      dsimp only
      rw [hrest]
      exact ⟨_, rfl⟩

theorem openAt_absent {directory : String} (settings : ClusterSettings) (node : ClientId)
    (h : ∀ j, j < settings.replicas → Disk.fault? (replicaPath directory j) = none ∧
      Disk.fault? (Store.logPath (replicaPath directory j)) = none) :
    ∃ events, openAt settings directory (List.replicate settings.replicas .absent) node =
      .ok (.empty settings node, events) := by
  obtain ⟨events, hreplicas⟩ := openReplicas_absent (i := 0) (n := settings.replicas)
    fun j _ hlt => h j (by omega)
  unfold openAt
  rw [hreplicas]
  exact ⟨_, rfl⟩

theorem Whole.write (h : k.Whole settings) (v : Version) : (k.write v).Whole settings where
  settings_eq := h.settings_eq
  size_eq := (List.length_map _).trans h.size_eq
  up := by
    intro r hr
    obtain ⟨r', hr', rfl⟩ := List.mem_map.1 hr
    rw [Replica.up_write]
    exact h.up r' hr'

theorem Whole.readOut (h : k.Whole settings) (l : Location) : (k.readOut l).Whole settings := by
  unfold Cluster.readOut
  split_ifs
  · refine ⟨h.settings_eq, (List.length_map _).trans h.size_eq, ?_⟩
    intro r hr
    obtain ⟨r', hr', rfl⟩ := List.mem_map.1 hr
    rw [Replica.up_repair]
    exact h.up r' hr'
  · exact h

theorem Whole.liveCount_eq (h : k.Whole settings) : k.liveCount = k.size :=
  List.countP_eq_length.2 h.up

/-! ## Requests that are met -/

theorem Whole.checkQuorum (h : k.Whole settings) {q : Quorum} {standardCount : Nat}
    (hrange : q.InRange settings.replicas standardCount) :
    ∃ n, k.checkQuorum q standardCount = .ok n := by
  obtain ⟨hpos, hle⟩ := hrange
  rw [← h.size_eq] at hpos hle
  unfold Cluster.checkQuorum
  dsimp only
  rw [if_neg (by omega), h.liveCount_eq, if_neg (by omega)]
  exact ⟨_, rfl⟩

theorem checkLocation_of_named (h : l.Named) : checkLocation l = .ok () := by
  unfold checkLocation
  rw [if_neg (by simpa using h.1), if_neg (by simpa using h.2)]

theorem Whole.exists_get (h : k.Whole settings) (hl : l.Named) {q : Quorum}
    (hrange : q.InRange settings.replicas settings.readQuorum) :
    ∃ reply clock, (k.get l q).result = .ok reply ∧ Clock.ofBytes reply.context = .ok clock := by
  obtain ⟨n, hn⟩ := h.checkQuorum hrange
  rw [← h.settings_eq] at hn
  have hresult : (k.get l q).result = .ok (k.read l).1 := by
    unfold get
    rw [checkLocation_of_named hl]
    dsimp only
    rw [hn]
  have hcontext : Clock.ofBytes (k.read l).1.context =
      .ok (coverOf (reconcile (k.held l))) := by
    rw [(read_eq k l).1]
    exact ofBytes_context _
  exact ⟨_, _, hresult, hcontext⟩

theorem Whole.exists_put (h : k.Whole settings) {r : PutRequest} (hl : r.location.Named)
    (hrange : r.quorum.InRange settings.replicas settings.writeQuorum) {context : Clock}
    (hcontext : Clock.ofBytes r.context = .ok context) (stamp : Stamp) :
    ∃ reply, (k.put r stamp).result = .ok reply := by
  obtain ⟨n, hn⟩ := h.checkQuorum hrange
  rw [← h.settings_eq] at hn
  unfold put
  rw [checkLocation_of_named hl]
  dsimp only
  rw [hn]
  dsimp only
  rw [hcontext]
  dsimp only
  split_ifs
  · exact ⟨_, rfl⟩
  · exact ⟨_, rfl⟩

theorem Whole.delete_result (h : k.Whole settings) (hl : l.Named) {q : Quorum}
    (hrange : q.InRange settings.replicas settings.writeQuorum) (stamp : Stamp) :
    (k.delete l q stamp).result = .ok () := by
  obtain ⟨n, hn⟩ := h.checkQuorum hrange
  rw [← h.settings_eq] at hn
  unfold delete
  rw [checkLocation_of_named hl]
  dsimp only
  rw [hn]

end Cluster

end SiblingStore
