import SiblingStore.Cluster.Basic
import SiblingStore.Proofs.Clock.Codec
import SiblingStore.Proofs.Cluster.Reconcile

/-!
# What a request does

A request that is met finds enough replicas up, tells what the live replicas
hold, and hands some of them versions to write. One that is refused changes
nothing.
-/

namespace SiblingStore

namespace Cluster

/-! ## Clocks of what is held -/

theorem foldl_merge_le {vs : List Version} {c d : Clock} (hc : c ≤ d)
    (h : ∀ v ∈ vs, v.clock ≤ d) : vs.foldl (fun c v => c.merge v.clock) c ≤ d := by
  induction vs generalizing c with
  | nil => exact hc
  | cons v vs ih =>
      exact ih (Clock.merge_le hc (h v (by simp))) fun w hw => h w (by simp [hw])

theorem le_foldl_merge (vs : List Version) (c : Clock) :
    c ≤ vs.foldl (fun c v => c.merge v.clock) c := by
  induction vs generalizing c with
  | nil => exact le_rfl
  | cons v vs ih => exact (Clock.le_merge_left c v.clock).trans (ih _)

theorem coverOf_le {vs : List Version} {d : Clock} (h : ∀ v ∈ vs, v.clock ≤ d) :
    coverOf vs ≤ d :=
  foldl_merge_le (Clock.empty_le d) h

theorem le_coverOf {vs : List Version} {v : Version} (h : v ∈ vs) : v.clock ≤ coverOf vs := by
  obtain ⟨before, after, rfl⟩ := List.append_of_mem h
  rw [coverOf, List.foldl_append, List.foldl_cons]
  exact (Clock.le_merge_right _ v.clock).trans (le_foldl_merge after _)

/-- Reconciled versions have the cover of all versions, up to entries of zero. -/
theorem coverOf_reconcile_le_iff {vs : List Version} {d : Clock} :
    coverOf (reconcile vs) ≤ d ↔ ∀ v ∈ vs, v.clock ≤ d := by
  refine ⟨fun h v hv => ?_, fun h => coverOf_le fun v hv => h v (mem_of_mem_reconcile hv)⟩
  obtain ⟨w, hw, hle⟩ := reach_reconcile_of_mem hv
  exact hle.trans ((le_coverOf hw).trans h)

theorem get_foldl_merge (vs : List Version) (c : Clock) (actor : String) :
    (vs.foldl (fun c v => c.merge v.clock) c).get actor = c.get actor ∨
      ∃ v ∈ vs, (vs.foldl (fun c v => c.merge v.clock) c).get actor = v.clock.get actor := by
  induction vs generalizing c with
  | nil => exact .inl rfl
  | cons v vs ih =>
      rw [List.foldl_cons]
      rcases ih (c.merge v.clock) with h | ⟨w, hw, h⟩
      · have hmax : (c.merge v.clock).get actor = c.get actor ∨
            (c.merge v.clock).get actor = v.clock.get actor := by
          rw [Clock.get_merge, ← UInt64.toNat_inj, ← UInt64.toNat_inj, Clock.toNat_max]
          omega
        rcases hmax with hmax | hmax
        · exact .inl (h.trans hmax)
        · exact .inr ⟨v, by simp, h.trans hmax⟩
      · exact .inr ⟨w, by simp [hw], h⟩

theorem get_coverOf (vs : List Version) (actor : String) :
    (coverOf vs).get actor = 0 ∨ ∃ v ∈ vs, (coverOf vs).get actor = v.clock.get actor :=
  get_foldl_merge vs .empty actor

theorem le_highest {vs : List Version} {v : Version} (h : v ∈ vs) (actor : String) :
    v.clock.get actor ≤ highest actor vs := by
  have hfold : ∀ (ns : List UInt64) (m : UInt64), m ≤ ns.foldl max m ∧
      ∀ n ∈ ns, n ≤ ns.foldl max m := by
    intro ns
    induction ns with
    | nil => exact fun m => ⟨UInt64.le_refl m, fun n hn => absurd hn List.not_mem_nil⟩
    | cons k ns ih =>
        intro m
        obtain ⟨hmax, hall⟩ := ih (max m k)
        refine ⟨UInt64.le_trans (Clock.le_max_left m k) hmax, fun n hn => ?_⟩
        rcases List.mem_cons.1 hn with rfl | hn
        · exact UInt64.le_trans (Clock.le_max_right m n) hmax
        · exact hall n hn
  exact (hfold _ 0).2 _ (List.mem_map.2 ⟨v, h, rfl⟩)

theorem highest_le {vs : List Version} {actor : String} {m : UInt64}
    (h : ∀ v ∈ vs, v.clock.get actor ≤ m) : highest actor vs ≤ m := by
  have hfold : ∀ (ns : List UInt64) (k : UInt64), k ≤ m → (∀ n ∈ ns, n ≤ m) →
      ns.foldl max k ≤ m := by
    intro ns
    induction ns with
    | nil => exact fun k hk _ => hk
    | cons n ns ih =>
        intro k hk hns
        exact ih _ (Clock.max_le hk (hns n (by simp))) fun n' hn' => hns n' (by simp [hn'])
  refine hfold _ 0 (Clock.zero_le m) fun n hn => ?_
  obtain ⟨v, hv, rfl⟩ := List.mem_map.1 hn
  exact h v hv

def writeBase (actor : String) (context : Clock) (held : List Version) : Clock :=
  context.merge (.ofList [(actor, highest actor held)])

theorem writeClock_eq (actor : String) (context : Clock) (held : List Version) :
    writeClock actor context held = (writeBase actor context held).increment actor := rfl

theorem get_writeBase_self (actor : String) (context : Clock) (held : List Version) :
    (writeBase actor context held).get actor = max (context.get actor) (highest actor held) := by
  rw [writeBase, Clock.get_merge, Clock.get_single_self]

theorem get_writeClock_of_ne {actor other : String} (h : other ≠ actor) (context : Clock)
    (held : List Version) : (writeClock actor context held).get other = context.get other := by
  rw [writeClock_eq, Clock.get_increment_of_ne _ h, writeBase, Clock.get_merge,
    Clock.get_single_of_ne h, Clock.max_zero]

theorem context_le_writeBase (actor : String) (context : Clock) (held : List Version) :
    context ≤ writeBase actor context held :=
  Clock.le_merge_left context _

theorem context_lt_writeClock {actor : String} {context : Clock} {held : List Version}
    (hroom : (writeBase actor context held).Room actor) :
    context < writeClock actor context held :=
  lt_of_le_of_lt (context_le_writeBase actor context held) (Clock.lt_increment hroom)

theorem get_lt_writeClock {actor : String} {context : Clock} {held : List Version}
    (hroom : (writeBase actor context held).Room actor) {n : UInt64}
    (h : n ≤ context.get actor ∨ ∃ v ∈ held, n ≤ v.clock.get actor) :
    n.toNat < ((writeClock actor context held).get actor).toNat := by
  have hbase : n ≤ (writeBase actor context held).get actor := by
    rw [get_writeBase_self]
    rcases h with h | ⟨v, hv, h⟩
    · exact UInt64.le_trans h (Clock.le_max_left ..)
    · exact UInt64.le_trans h (UInt64.le_trans (le_highest hv actor) (Clock.le_max_right ..))
  rw [writeClock_eq, Clock.toNat_get_increment hroom]
  exact Nat.lt_succ_of_le (UInt64.le_iff_toNat_le.1 hbase)

theorem not_writeClock_le {actor : String} {context : Clock} {held : List Version}
    (hroom : (writeBase actor context held).Room actor) {e : Version} (he : e ∈ held) :
    ¬writeClock actor context held ≤ e.clock := by
  intro hle
  have hlt := get_lt_writeClock hroom (.inr ⟨e, he, UInt64.le_refl _⟩)
  exact absurd (Clock.toNat_get_le hle actor) (Nat.not_le.2 hlt)

theorem ofBytes_context (vs : List Version) :
    Clock.ofBytes (replyOf vs).context = .ok (coverOf vs) :=
  Clock.ofBytes_toBytes _

/-! ## What is held -/

theorem mem_held_iff {c : Cluster} {l : Location} {v : Version} :
    v ∈ c.held l ↔ ∃ r ∈ c.replicas, r.up = true ∧ v ∈ r.store.versions l := by
  simp only [held, answers, List.mem_flatten, List.mem_map, List.mem_filter]
  constructor
  · rintro ⟨-, ⟨r, ⟨hr, hup⟩, rfl⟩, hv⟩
    exact ⟨r, hr, hup, hv⟩
  · rintro ⟨r, hr, hup, hv⟩
    exact ⟨_, ⟨r, ⟨hr, hup⟩, rfl⟩, hv⟩

theorem location_of_mem_held {c : Cluster} {l : Location} {v : Version} (h : v ∈ c.held l) :
    v.location = l := by
  obtain ⟨r, -, -, hv⟩ := mem_held_iff.1 h
  exact Table.location_of_mem hv

/-! ## Replicas -/

theorem Replica.up_write (v : Version) (r : Replica) : (Replica.write v r).up = r.up := by
  unfold Replica.write
  split_ifs <;> rfl

theorem Replica.write_of_up {r : Replica} (h : r.up = true) (v : Version) :
    Replica.write v r = { r with store := (r.store.put v).2 } := by
  rw [Replica.write, if_pos h]

theorem Replica.write_of_down {r : Replica} (h : r.up = false) (v : Version) :
    Replica.write v r = r := by
  rw [Replica.write, if_neg (by simp [h])]

theorem Replica.versions_write (v : Version) (r : Replica) (l : Location) :
    (Replica.write v r).store.versions l =
      if r.up = true ∧ v.location = l then Version.settle (r.store.versions l) v
      else r.store.versions l := by
  cases hup : r.up with
  | true =>
      rw [Replica.write_of_up hup]
      simp only [true_and]
      exact Table.versions_put r.store.table v l
  | false =>
      rw [Replica.write_of_down hup, if_neg (by simp)]

theorem Replica.up_repair (l : Location) (vs : List Version) (r : Replica) :
    (Replica.repair l vs r).up = r.up := by
  unfold Replica.repair
  split_ifs <;> rfl

theorem Replica.repair_of_stale {l : Location} {vs : List Version} {r : Replica}
    (h : Replica.needsRepair l vs r = true) :
    Replica.repair l vs r = { r with store := r.store.putAll vs } := by
  rw [Replica.repair, if_pos h]

theorem Replica.repair_of_fresh {l : Location} {vs : List Version} {r : Replica}
    (h : Replica.needsRepair l vs r = false) : Replica.repair l vs r = r := by
  rw [Replica.repair, if_neg (by simp [h])]

/-! ## Requests -/

theorem exists_of_isOk {ε α : Type} {x : Except ε α} (h : x.isOk = true) : ∃ a, x = .ok a := by
  cases x with
  | error e => exact absurd h (by simp [Except.isOk, Except.toBool])
  | ok a => exact ⟨a, rfl⟩

theorem checkQuorum_ok {c : Cluster} {q : Quorum} {standard n : Nat}
    (h : c.checkQuorum q standard = .ok n) :
    n = q.required c.size standard ∧ 0 < n ∧ n ≤ c.size ∧ n ≤ c.liveCount := by
  unfold checkQuorum at h
  dsimp only at h
  split_ifs at h with hrange hlive
  injection h with h
  subst h
  omega

def readOut (c : Cluster) (l : Location) : Cluster :=
  if c.settings.readRepair = true then c.repair l (reconcile (c.held l)) else c

theorem Replica.needsRepair_nil {c : Cluster} {l : Location} {r : Replica}
    (hr : r ∈ c.replicas) (h : reconcile (c.held l) = []) :
    Replica.needsRepair l [] r = false := by
  by_contra hstale
  rw [Bool.not_eq_false, needsRepair, Bool.and_eq_true] at hstale
  obtain ⟨v, hv⟩ : ∃ v, v ∈ r.store.versions l := by
    refine List.exists_mem_of_ne_nil _ fun hnil => ?_
    simp [hnil, isStale] at hstale
  obtain ⟨w, hw, -⟩ := reach_reconcile_of_mem (mem_held_iff.2 ⟨r, hr, hstale.1, hv⟩)
  simp [h] at hw

theorem repair_eq_self {c : Cluster} {l : Location} {vs : List Version}
    (h : ∀ r ∈ c.replicas, Replica.needsRepair l vs r = false) : c.repair l vs = c := by
  have hsame : c.replicas.map (Replica.repair l vs) = c.replicas :=
    (List.map_congr_left fun r hr => Replica.repair_of_fresh (h r hr)).trans (List.map_id _)
  rw [repair, hsame]

theorem read_eq (c : Cluster) (l : Location) :
    (c.read l).1 = replyOf (reconcile (c.held l)) ∧ (c.read l).2.1 = c.readOut l := by
  unfold read readOut
  cases hrepair : c.settings.readRepair with
  | false => exact ⟨rfl, rfl⟩
  | true =>
      by_cases hnil : reconcile (c.held l) = []
      · have hrepaired : c.repair l [] = c :=
          repair_eq_self fun r hr => Replica.needsRepair_nil hr hnil
        simp [hnil, hrepaired]
      · simp [hnil]

theorem get_error {c : Cluster} {l : Location} {q : Quorum} {e : EngineError}
    (h : (c.get l q).result = .error e) : (c.get l q).cluster = c := by
  unfold get at h ⊢
  split at h
  · rfl
  · split at h
    · rfl
    · exact absurd h (by simp)

theorem checks_of_get {c : Cluster} {l : Location} {q : Quorum} {reply : FetchReply}
    (h : (c.get l q).result = .ok reply) :
    checkLocation l = .ok () ∧ ∃ n, c.checkQuorum q c.settings.readQuorum = .ok n := by
  unfold get at h
  split at h
  · exact absurd h (by simp [refuse])
  · rename_i hlocation
    split at h
    · exact absurd h (by simp [refuse])
    · rename_i n hquorum
      exact ⟨hlocation, n, hquorum⟩

theorem get_of_checks {c : Cluster} {l : Location} {q : Quorum} {n : Nat}
    (hl : checkLocation l = .ok ()) (hn : c.checkQuorum q c.settings.readQuorum = .ok n) :
    c.get l q = ⟨.ok (c.read l).1, (c.read l).2.1, (c.read l).2.2⟩ := by
  simp only [get, hl, hn]

theorem get_ok {c : Cluster} {l : Location} {q : Quorum} {reply : FetchReply}
    (h : (c.get l q).result = .ok reply) :
    q.required c.size c.settings.readQuorum ≤ c.liveCount ∧
      0 < q.required c.size c.settings.readQuorum ∧
      reply = replyOf (reconcile (c.held l)) ∧ (c.get l q).cluster = c.readOut l := by
  obtain ⟨hreply, hread⟩ := read_eq c l
  obtain ⟨hl, n, hquorum⟩ := checks_of_get h
  obtain ⟨hn, hpos, -, hlive⟩ := checkQuorum_ok hquorum
  rw [get_of_checks hl hquorum] at h ⊢
  injection h with h
  exact ⟨hn ▸ hlive, hn ▸ hpos, h.symm.trans hreply, hread⟩

def putVersion (c : Cluster) (r : PutRequest) (context : Clock) (stamp : Stamp) : Version :=
  .live r.location r.value (writeClock r.writer.toHex context (c.held r.location)) stamp

theorem put_error {c : Cluster} {r : PutRequest} {stamp : Stamp} {e : EngineError}
    (h : (c.put r stamp).result = .error e) : (c.put r stamp).cluster = c := by
  unfold put at h ⊢
  split at h
  · rfl
  · split at h
    · rfl
    · split at h
      · rfl
      · simp only at h
        split_ifs at h

theorem checks_of_put {c : Cluster} {r : PutRequest} {stamp : Stamp} {reply : PutReply}
    (h : (c.put r stamp).result = .ok reply) :
    checkLocation r.location = .ok () ∧
      (∃ n, c.checkQuorum r.quorum c.settings.writeQuorum = .ok n) ∧
      ∃ context, Clock.ofBytes r.context = .ok context := by
  unfold put at h
  split at h
  · exact absurd h (by simp [refuse])
  · rename_i hlocation
    split at h
    · exact absurd h (by simp [refuse])
    · rename_i n hquorum
      split at h
      · exact absurd h (by simp [refuse])
      · rename_i context hcontext
        exact ⟨hlocation, ⟨n, hquorum⟩, context, hcontext⟩

theorem put_of_checks {c : Cluster} {r : PutRequest} {stamp : Stamp} {n : Nat} {context : Clock}
    (hl : checkLocation r.location = .ok ())
    (hn : c.checkQuorum r.quorum c.settings.writeQuorum = .ok n)
    (hcontext : Clock.ofBytes r.context = .ok context) :
    c.put r stamp =
      let v := c.putVersion r context stamp
      let conflict := decide (1 < c.livingAfter v)
      if r.returnBody = true then
        ⟨.ok ⟨conflict, some ((c.write v).read r.location).1⟩,
          ((c.write v).read r.location).2.1, ((c.write v).read r.location).2.2⟩
      else ⟨.ok ⟨conflict, none⟩, c.write v, []⟩ := by
  simp only [put, hl, hn, hcontext]
  rfl

theorem put_ok {c : Cluster} {r : PutRequest} {stamp : Stamp} {reply : PutReply}
    (h : (c.put r stamp).result = .ok reply) :
    ∃ context, Clock.ofBytes r.context = .ok context ∧
      r.quorum.required c.size c.settings.writeQuorum ≤ c.liveCount ∧
      0 < r.quorum.required c.size c.settings.writeQuorum ∧
      reply.body = (if r.returnBody = true then
        some (replyOf (reconcile ((c.write (c.putVersion r context stamp)).held r.location)))
        else none) ∧
      (c.put r stamp).cluster = (if r.returnBody = true then
        (c.write (c.putVersion r context stamp)).readOut r.location
        else c.write (c.putVersion r context stamp)) := by
  obtain ⟨hl, ⟨n, hquorum⟩, context, hcontext⟩ := checks_of_put h
  obtain ⟨hn, hpos, -, hlive⟩ := checkQuorum_ok hquorum
  obtain ⟨hreply, hread⟩ := read_eq (c.write (c.putVersion r context stamp)) r.location
  refine ⟨context, hcontext, hn ▸ hlive, hn ▸ hpos, ?_⟩
  rw [put_of_checks hl hquorum hcontext] at h ⊢
  dsimp only at h ⊢
  split_ifs at h ⊢
  · injection h with h
    refine ⟨?_, hread⟩
    rw [← h, hreply]
  · injection h with h
    exact ⟨by rw [← h], rfl⟩

theorem cluster_of_put {c : Cluster} {r : PutRequest} {stamp : Stamp} {reply : PutReply}
    {context : Clock} (h : (c.put r stamp).result = .ok reply)
    (hcontext : Clock.ofBytes r.context = .ok context) :
    (c.put r stamp).cluster = if r.returnBody = true then
      (c.write (c.putVersion r context stamp)).readOut r.location
      else c.write (c.putVersion r context stamp) := by
  obtain ⟨context', hcontext', -, -, -, hcluster⟩ := put_ok h
  obtain rfl : context' = context := Except.ok.inj (hcontext'.symm.trans hcontext)
  exact hcluster

def deleteVersion (c : Cluster) (l : Location) (stamp : Stamp) : Version :=
  .grave l ((coverOf (c.held l)).increment c.node.toHex) stamp

theorem delete_error {c : Cluster} {l : Location} {q : Quorum} {stamp : Stamp}
    {e : EngineError} (h : (c.delete l q stamp).result = .error e) :
    (c.delete l q stamp).cluster = c := by
  unfold delete at h ⊢
  split at h
  · rfl
  · split at h
    · rfl
    · exact absurd h (by simp)

theorem checks_of_delete {c : Cluster} {l : Location} {q : Quorum} {stamp : Stamp}
    (h : (c.delete l q stamp).result = .ok ()) :
    checkLocation l = .ok () ∧ ∃ n, c.checkQuorum q c.settings.writeQuorum = .ok n := by
  unfold delete at h
  split at h
  · exact absurd h (by simp [refuse])
  · rename_i hlocation
    split at h
    · exact absurd h (by simp [refuse])
    · rename_i n hquorum
      exact ⟨hlocation, n, hquorum⟩

theorem delete_ok {c : Cluster} {l : Location} {q : Quorum} {stamp : Stamp}
    (h : (c.delete l q stamp).result = .ok ()) :
    q.required c.size c.settings.writeQuorum ≤ c.liveCount ∧
      0 < q.required c.size c.settings.writeQuorum ∧
      (c.delete l q stamp).cluster = c.write (c.deleteVersion l stamp) := by
  obtain ⟨hl, n, hquorum⟩ := checks_of_delete h
  obtain ⟨hn, hpos, -, hlive⟩ := checkQuorum_ok hquorum
  refine ⟨hn ▸ hlive, hn ▸ hpos, ?_⟩
  simp only [delete, hl, hquorum]
  rfl

theorem listKeys_cluster (c : Cluster) (bucket : String) : (c.listKeys bucket).cluster = c := by
  unfold listKeys
  split_ifs <;> rfl

theorem listKeys_ok {c : Cluster} {bucket : String} {names : List String}
    (h : (c.listKeys bucket).result = .ok names) :
    names = (c.candidates bucket).toList.filter fun key =>
      (reconcile (c.held ⟨bucket, key⟩)).any fun v => !v.tombstone := by
  unfold listKeys at h
  split_ifs at h with hempty hnone
  · exact absurd h (by simp [refuse])
  · exact absurd h (by simp [refuse])
  · injection h with h
    exact h.symm

end Cluster

end SiblingStore
