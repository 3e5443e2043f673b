import SiblingStore.Proofs.Cluster.Answers
import SiblingStore.Proofs.Cluster.Run

/-!
# What read repair brings about

After a read that repairs, all live replicas hold versions of the same clocks. They
hold the same versions unless one of them held other content under these clocks:
whether a replica is stale is told by number and clocks alone.
-/

namespace SiblingStore

/-- What a version says, whenever it was written. -/
def Version.content (v : Version) : Clock × Bytes × Bool × String :=
  (v.clock, v.value, v.tombstone, v.tag)

theorem Version.clock_eq_of_content_eq {v w : Version} (h : v.content = w.content) :
    v.clock = w.clock :=
  congrArg Prod.fst h

namespace Cluster

def Agree (c : Cluster) (l : Location) : Prop :=
  ∀ r ∈ c.replicas, r.up = true → ∀ r' ∈ c.replicas, r'.up = true →
    ∀ v ∈ r.store.versions l, ∃ w ∈ r'.store.versions l, w.content = v.content

def AgreeOnClocks (c : Cluster) (l : Location) : Prop :=
  ∀ r ∈ c.replicas, r.up = true → ∀ r' ∈ c.replicas, r'.up = true →
    ∀ v ∈ r.store.versions l, ∃ w ∈ r'.store.versions l, w.clock = v.clock

/-- Whether a live replica is taken to be up to date that holds a version which is
none of the reconciled ones. -/
def Masked (c : Cluster) (l : Location) : Prop :=
  ∃ r ∈ c.replicas, r.up = true ∧ isStale (r.store.versions l) (reconcile (c.held l)) = false ∧
    ∃ v ∈ r.store.versions l, ∀ w ∈ reconcile (c.held l), w.content ≠ v.content

instance (c : Cluster) (l : Location) : Decidable (c.Masked l) :=
  inferInstanceAs (Decidable (∃ r ∈ c.replicas, _ ∧ _ ∧ ∃ v ∈ r.store.versions l, _))

/-! ## One replica -/

theorem needsRepair_eq_isStale {r : Replica} (hup : r.up = true) (l : Location)
    (vs : List Version) : Replica.needsRepair l vs r = isStale (r.store.versions l) vs := by
  rw [Replica.needsRepair, hup, Bool.true_and]

/-- A stale replica holds the reconciled versions afterwards. -/
theorem versions_repair_of_stale {c : Cluster} {l : Location} {r : Replica}
    (hr : r ∈ c.replicas) (hup : r.up = true)
    (hstale : isStale (r.store.versions l) (reconcile (c.held l)) = true) :
    (Replica.repair l (reconcile (c.held l)) r).store.versions l = reconcile (c.held l) := by
  have hlocation : ∀ v ∈ reconcile (c.held l), v.location = l := fun v hv =>
    location_of_mem_held (mem_of_mem_reconcile hv)
  have hbelow : ∀ t ∈ r.store.versions l, Version.Reach (reconcile (c.held l)) t.clock :=
    fun t ht => reach_reconcile_of_mem (mem_held_iff.2 ⟨r, hr, hup, ht⟩)
  rw [Replica.repair_of_stale (by rw [needsRepair_eq_isStale hup, hstale]), Store.putAll_eq]
  change (r.store.table.putAll _).versions l = _
  rw [Table.versions_putAll_of_location hlocation]
  exact foldl_settle_of_reach (pairwise_reconcile _) hbelow

theorem repair_of_not_isStale {l : Location} {r : Replica} (hup : r.up = true)
    {vs : List Version} (hfresh : isStale (r.store.versions l) vs = false) :
    Replica.repair l vs r = r :=
  Replica.repair_of_fresh (by rw [needsRepair_eq_isStale hup, hfresh])

theorem exists_clock_of_not_isStale {vs theirs : List Version} (h : vs.Pairwise Version.Apart)
    (hfresh : isStale theirs vs = false) {t : Version} (ht : t ∈ theirs) :
    ∃ w ∈ vs, w.clock = t.clock := by
  have hclock : t.clock ∈ vs.map (·.clock) :=
    (clocks_perm_of_not_isStale h hfresh).mem_iff.2 (List.mem_map_of_mem ht)
  obtain ⟨w, hw, heq⟩ := List.mem_map.1 hclock
  exact ⟨w, hw, heq⟩

/-! ## All live replicas -/

/-- The first live replica is never masked: what it holds comes first. -/
theorem exists_versions_repair_eq {c : Cluster} {l : Location} (hlive : 0 < c.liveCount)
    (hapart : ∀ r ∈ c.replicas, (r.store.versions l).Pairwise Version.Apart) :
    ∃ r ∈ c.replicas, r.up = true ∧
      (Replica.repair l (reconcile (c.held l)) r).store.versions l = reconcile (c.held l) := by
  rw [liveCount, List.countP_eq_length_filter] at hlive
  obtain ⟨r, rs, hfilter⟩ := List.exists_cons_of_length_pos hlive
  have hmem : r ∈ c.replicas.filter (·.up) := by
    rw [hfilter]
    exact List.mem_cons_self
  obtain ⟨hr, hup⟩ := List.mem_filter.1 hmem
  have hheld : c.held l = r.store.versions l ++ (rs.map (·.store.versions l)).flatten := by
    rw [held, answers, hfilter]
    rfl
  refine ⟨r, hr, hup, ?_⟩
  rw [versions_repair location_of_mem_reconcile hup, hheld]
  exact repaired_eq_reconcile (hapart r hr) _

theorem forall_replicas_repair {c : Cluster} {l : Location} {vs : List Version}
    {P : Replica → Prop} :
    (∀ r ∈ (c.repair l vs).replicas, r.up = true → P r) ↔
      ∀ r ∈ c.replicas, r.up = true → P (Replica.repair l vs r) := by
  rw [repair]
  simp only [List.forall_mem_map, Replica.up_repair]

theorem agreeOnClocks_repair {c : Cluster} {l : Location} :
    (c.repair l (reconcile (c.held l))).AgreeOnClocks l := by
  have hsame : ∀ r ∈ c.replicas, r.up = true → ∀ k,
      (∃ v ∈ (Replica.repair l (reconcile (c.held l)) r).store.versions l, v.clock = k) ↔
        ∃ w ∈ reconcile (c.held l), w.clock = k := by
    intro r hr hup k
    cases hstale : isStale (r.store.versions l) (reconcile (c.held l)) with
    | true => rw [versions_repair_of_stale hr hup hstale]
    | false =>
        rw [repair_of_not_isStale hup hstale]
        constructor
        · rintro ⟨v, hv, rfl⟩
          exact exists_clock_of_not_isStale (pairwise_reconcile _) hstale hv
        · rintro ⟨w, hw, rfl⟩
          exact (isStale_eq_false_iff.1 hstale).2 w hw
  unfold AgreeOnClocks
  rw [forall_replicas_repair]
  intro r hr hup
  rw [forall_replicas_repair]
  intro r' hr' hup' v hv
  exact (hsame r' hr' hup' v.clock).2 ((hsame r hr hup v.clock).1 ⟨v, hv, rfl⟩)

theorem not_masked_of_agree {c : Cluster} {l : Location} (hlive : 0 < c.liveCount)
    (hapart : ∀ r ∈ c.replicas, (r.store.versions l).Pairwise Version.Apart)
    (h : (c.repair l (reconcile (c.held l))).Agree l) : ¬c.Masked l := by
  rintro ⟨r, hr, hup, hfresh, v, hv, hother⟩
  obtain ⟨r₀, hr₀, hup₀, heq⟩ := exists_versions_repair_eq hlive hapart
  unfold Agree at h
  rw [forall_replicas_repair] at h
  have hagree := h r hr hup
  rw [forall_replicas_repair] at hagree
  have hsame := hagree r₀ hr₀ hup₀ v
  rw [repair_of_not_isStale hup hfresh, heq] at hsame
  obtain ⟨w, hw, hcontent⟩ := hsame hv
  exact hother w hw hcontent

theorem agree_of_not_masked {c : Cluster} {l : Location} (h : ¬c.Masked l) :
    (c.repair l (reconcile (c.held l))).Agree l := by
  unfold Masked at h
  push Not at h
  -- what a live replica holds afterwards is reconciled, and all of that it holds
  have hreconciled : ∀ r ∈ c.replicas, r.up = true →
      ∀ v ∈ (Replica.repair l (reconcile (c.held l)) r).store.versions l,
        ∃ w ∈ reconcile (c.held l), w.content = v.content := by
    intro r hr hup v hv
    cases hstale : isStale (r.store.versions l) (reconcile (c.held l)) with
    | true =>
        rw [versions_repair_of_stale hr hup hstale] at hv
        exact ⟨v, hv, rfl⟩
    | false =>
        rw [repair_of_not_isStale hup hstale] at hv
        exact h r hr hup hstale v hv
  have hall : ∀ r ∈ c.replicas, r.up = true → ∀ w ∈ reconcile (c.held l),
      ∃ v ∈ (Replica.repair l (reconcile (c.held l)) r).store.versions l,
        v.content = w.content := by
    intro r hr hup w hw
    cases hstale : isStale (r.store.versions l) (reconcile (c.held l)) with
    | true =>
        rw [versions_repair_of_stale hr hup hstale]
        exact ⟨w, hw, rfl⟩
    | false =>
        rw [repair_of_not_isStale hup hstale]
        obtain ⟨t, ht, hclock⟩ := (isStale_eq_false_iff.1 hstale).2 w hw
        obtain ⟨w', hw', hcontent⟩ := h r hr hup hstale t ht
        have heq : w' = w := by
          refine eq_of_le_of_mem (pairwise_reconcile _) hw' hw (le_of_eq ?_)
          rw [Version.clock_eq_of_content_eq hcontent, hclock]
        exact ⟨t, ht, by rw [← hcontent, heq]⟩
  unfold Agree
  rw [forall_replicas_repair]
  intro r hr hup
  rw [forall_replicas_repair]
  intro r' hr' hup' v hv
  obtain ⟨w, hw, hcontent⟩ := hreconciled r hr hup v hv
  obtain ⟨v', hv', hcontent'⟩ := hall r' hr' hup' w hw
  exact ⟨v', hv', hcontent'.trans hcontent⟩

/-! ## Reads -/

/-- After a read that repairs, in whatever state a run has left the cluster, the live
replicas agree on the clocks of a location; they agree on its versions exactly if
none was masked. -/
theorem get_agrees_iff_not_masked {settings : ClusterSettings} {node : ClientId}
    {ds : List Deed} {c : Cluster} (hrun : c = (empty settings node).after ds)
    (hrepair : settings.readRepair = true) {l : Location} {q : Quorum} {reply : FetchReply}
    (h : (c.get l q).result = .ok reply) :
    (c.get l q).cluster.AgreeOnClocks l ∧
      ((c.get l q).cluster.Agree l ↔ ¬c.Masked l) := by
  subst hrun
  have hsettings : ∀ (c : Cluster) (ds : List Deed), (c.after ds).settings = c.settings := by
    intro c ds
    induction ds generalizing c with
    | nil => rfl
    | cons d ds ih => exact (ih (c.apply d)).trans (grows_apply c d).1
  obtain ⟨hlive, hpos, -, hcluster⟩ := get_ok h
  rw [hcluster, readOut, if_pos (by rw [hsettings]; exact hrepair)]
  exact ⟨agreeOnClocks_repair, not_masked_of_agree (hpos.trans_le hlive) (pairwise_versions ds l),
    agree_of_not_masked⟩

/-- One writer writes to each of two replicas while the other is down. -/
def splitWrites : List Deed :=
  let put (value : UInt8) (tag : String) : Deed :=
    .put ⟨⟨"b", "k"⟩, [value], [], default, .one, false⟩ ⟨tag, 0⟩
  [.setUp 1 false, put 0 "first", .setUp 1 true, .setUp 0 false, put 1 "second", .setUp 0 true]

theorem not_agree_after_splitWrites :
    let c := (empty ⟨2, 1, 1, true⟩ default).after splitWrites
    ∃ reply, (c.get ⟨"b", "k"⟩ .all).result = .ok reply ∧
      ¬(c.get ⟨"b", "k"⟩ .all).cluster.Agree ⟨"b", "k"⟩ := by
  intro c
  have hmasked : c.Masked ⟨"b", "k"⟩ := by decide +kernel
  have hok : (c.get ⟨"b", "k"⟩ .all).result.isOk = true := by decide +kernel
  cases hreply : (c.get ⟨"b", "k"⟩ .all).result with
  | error e =>
      rw [hreply] at hok
      exact absurd hok (by simp [Except.isOk, Except.toBool])
  | ok reply =>
      have hiff := (get_agrees_iff_not_masked (c := c) rfl rfl hreply).2
      exact ⟨reply, rfl, fun hagree => hiff.1 hagree hmasked⟩

end Cluster

end SiblingStore
