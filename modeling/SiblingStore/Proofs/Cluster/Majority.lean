import SiblingStore.Proofs.Cluster.Run

/-!
# Majorities

Two majorities of the replicas have one in common. What more than half of them
have and keep, whoever asks more than half of them finds.
-/

namespace SiblingStore.Cluster

open Version (Reach)

open Classical in
def Most (c : Cluster) (p : Replica → Prop) : Prop :=
  c.size < 2 * c.replicas.countP (fun r => decide (p r))

theorem Most.exists_both {c : Cluster} {p q : Replica → Prop} (hp : c.Most p) (hq : c.Most q) :
    ∃ r ∈ c.replicas, p r ∧ q r := by
  classical
  by_contra hnone
  push Not at hnone
  have hle : c.replicas.countP (fun r => decide (q r)) ≤
      c.replicas.countP (fun r => decide ¬decide (p r) = true) := by
    refine List.countP_mono_left fun r hr hqr => ?_
    have hnot : ¬p r := fun hpr => hnone r hr hpr (of_decide_eq_true hqr)
    simp [hnot]
  have hsum := List.length_eq_countP_add_countP (fun r => decide (p r)) (l := c.replicas)
  unfold Most size at hp hq
  omega

theorem Most.imp {c : Cluster} {p q : Replica → Prop} (hp : c.Most p)
    (h : ∀ r ∈ c.replicas, p r → q r) : c.Most q := by
  classical
  have hle : c.replicas.countP (fun r => decide (p r)) ≤
      c.replicas.countP (fun r => decide (q r)) := by
    refine List.countP_mono_left fun r hr hpr => ?_
    exact decide_eq_true (h r hr (of_decide_eq_true hpr))
  unfold Most at hp ⊢
  omega

/-- What replicas do not lose as they take in versions, most go on to have. -/
theorem Most.grows {c c' : Cluster} {fresh : Option Version} {p q : Replica → Prop}
    (hp : c.Most p) (h : c.Grows fresh c')
    (hstep : ∀ r r', c.Takes fresh r r' → p r → q r') : c'.Most q := by
  classical
  have hle : ∀ {rs rs' : List Replica}, List.Forall₂ (c.Takes fresh) rs rs' →
      rs.countP (fun r => decide (p r)) ≤ rs'.countP (fun r => decide (q r)) := by
    intro rs rs' htakes
    induction htakes with
    | nil => exact le_rfl
    | @cons r r' rs rs' hr _ ih =>
        rw [List.countP_cons, List.countP_cons]
        by_cases hpr : p r
        · have hqr := hstep r r' hr hpr
          simp only [hpr, hqr, decide_true, if_true]
          omega
        · simp only [hpr, decide_false, Bool.false_eq_true, if_false]
          omega
  have hcount := hle h.2.2
  have hsize := h.size_eq
  unfold Most at hp ⊢
  omega

theorem most_up_iff {c : Cluster} : c.Most (·.up = true) ↔ c.size < 2 * c.liveCount := by
  unfold Most liveCount
  simp only [Bool.decide_eq_true]

theorem most_up {c : Cluster} {n : Nat} (hn : c.size < 2 * n) (hlive : n ≤ c.liveCount) :
    c.Most (·.up = true) := by
  rw [most_up_iff]
  omega

def ReadsMost (c : Cluster) (q : Quorum) : Prop :=
  c.size < 2 * q.required c.size c.settings.readQuorum

def WritesMost (c : Cluster) (q : Quorum) : Prop :=
  c.size < 2 * q.required c.size c.settings.writeQuorum

instance (c : Cluster) (q : Quorum) : Decidable (c.ReadsMost q) :=
  inferInstanceAs (Decidable (_ < _))

instance (c : Cluster) (q : Quorum) : Decidable (c.WritesMost q) :=
  inferInstanceAs (Decidable (_ < _))

theorem Grows.readsMost_iff {c c' : Cluster} {fresh : Option Version} (h : c.Grows fresh c')
    (q : Quorum) : c'.ReadsMost q ↔ c.ReadsMost q := by
  rw [ReadsMost, ReadsMost, h.size_eq, h.1]

theorem Grows.writesMost_iff {c c' : Cluster} {fresh : Option Version} (h : c.Grows fresh c')
    (q : Quorum) : c'.WritesMost q ↔ c.WritesMost q := by
  rw [WritesMost, WritesMost, h.size_eq, h.1]

theorem Takes.reach {c : Cluster} {fresh : Option Version} {r r' : Replica}
    (h : c.Takes fresh r r') {l : Location} {k : Clock} (hk : Reach (r.store.versions l) k) :
    Reach (r'.store.versions l) k :=
  h.versions (P := fun vs => Reach vs k) (fun _ v _ _ hvs => hvs.settle v) hk

theorem Most.reach {c c' : Cluster} {fresh : Option Version} {l : Location} {k : Clock}
    (hk : c.Most fun r => Reach (r.store.versions l) k) (h : c.Grows fresh c') :
    c'.Most fun r => Reach (r.store.versions l) k :=
  hk.grows h fun _ _ htakes => htakes.reach

/-- What most replicas reach, a majority that is up tells of. -/
theorem Most.exists_held {c : Cluster} {l : Location} {k : Clock}
    (hk : c.Most fun r => Reach (r.store.versions l) k) (hup : c.Most (·.up = true)) :
    Reach (c.held l) k := by
  obtain ⟨r, hr, ⟨v, hv, hle⟩, hrup⟩ := hk.exists_both hup
  exact ⟨v, mem_held_iff.2 ⟨r, hr, hrup, hv⟩, hle⟩

theorem le_coverOf_reconcile {c : Cluster} {l : Location} {k : Clock}
    (h : Reach (c.held l) k) : k ≤ coverOf (reconcile (c.held l)) := by
  obtain ⟨v, hv, hle⟩ := h
  exact hle.trans (coverOf_reconcile_le_iff.1 le_rfl v hv)

/-! ## Writing to a majority -/

theorem liveCount_write (c : Cluster) (v : Version) : (c.write v).liveCount = c.liveCount := by
  have hreplicas : (c.write v).replicas = c.replicas.map (Replica.write v) := rfl
  rw [liveCount, hreplicas, List.countP_map]
  simp only [Function.comp_def, Replica.up_write]
  rfl

theorem most_up_write {c : Cluster} (v : Version) (hup : c.Most (·.up = true)) :
    (c.write v).Most (·.up = true) := by
  rw [most_up_iff] at hup ⊢
  rw [liveCount_write, (grows_write c v).size_eq]
  exact hup

theorem most_write {c : Cluster} {v : Version} {p : Replica → Prop} (hup : c.Most (·.up = true))
    (h : ∀ r ∈ c.replicas, r.up = true → p (Replica.write v r)) : (c.write v).Most p := by
  refine (most_up_write v hup).imp fun r' hr' hup' => ?_
  obtain ⟨r, hr, rfl⟩ := List.mem_map.1 hr'
  rw [Replica.up_write] at hup'
  exact h r hr hup'

/-- A version that nothing supersedes is held by a majority once it is written. -/
theorem most_mem_write {c : Cluster} {v : Version} (hup : c.Most (·.up = true))
    (h : ∀ e, c.Holds e → e.location = v.location → ¬v.clock < e.clock) :
    (c.write v).Most fun r => v ∈ r.store.versions v.location := by
  apply most_write hup
  intro r hr hrup
  rw [Replica.versions_write, if_pos ⟨hrup, rfl⟩]
  exact Version.mem_settle_self fun e he => h e (holds_of_mem hr he) (Table.location_of_mem he)

theorem most_reach_write {c : Cluster} (v : Version) (hup : c.Most (·.up = true)) :
    (c.write v).Most fun r => Reach (r.store.versions v.location) v.clock := by
  refine most_write hup fun r _ hrup => ?_
  rw [Replica.versions_write, if_pos ⟨hrup, rfl⟩]
  exact Version.reach_settle_self _ v

end SiblingStore.Cluster
