import SiblingStore.Store
import SiblingStore.Proofs.Clock.Order

/-!
# What is held of one location

A write changes what a table holds of the location of its version, and that in
the same way for all tables that hold the same of it. Versions go only for others
that are at or above them.
-/

namespace SiblingStore

def Version.settle (vs : List Version) (v : Version) : List Version :=
  if vs.any (Table.supersededBy v) then vs
  else vs.filter (fun e => v.clock.compare e.clock = .concurrent) ++ [v]

namespace Version

def Apart (v w : Version) : Prop := ¬v.clock ≤ w.clock ∧ ¬w.clock ≤ v.clock

theorem Apart.symm {v w : Version} (h : Apart v w) : Apart w v := ⟨h.2, h.1⟩

instance : Std.Symm Apart := ⟨fun _ _ => Apart.symm⟩

def Reach (vs : List Version) (c : Clock) : Prop := ∃ v ∈ vs, c ≤ v.clock

theorem Reach.of_le {vs : List Version} {c d : Clock} (h : Reach vs d) (hle : c ≤ d) :
    Reach vs c := by
  obtain ⟨v, hv, hd⟩ := h
  exact ⟨v, hv, hle.trans hd⟩

theorem any_supersededBy_iff {vs : List Version} {v : Version} :
    vs.any (Table.supersededBy v) = true ↔ ∃ e ∈ vs, v.clock < e.clock := by
  simp [Table.supersededBy, Clock.compare_eq_dominatedBy_iff]

theorem not_any_supersededBy {vs : List Version} {v : Version} (h : ¬Reach vs v.clock) :
    ¬vs.any (Table.supersededBy v) = true := by
  rw [any_supersededBy_iff]
  rintro ⟨e, he, hlt⟩
  exact h ⟨e, he, hlt.le⟩

theorem mem_of_mem_settle {vs : List Version} {v w : Version} (h : w ∈ settle vs v) :
    w ∈ vs ∨ w = v := by
  unfold settle at h
  split_ifs at h
  · exact .inl h
  · rcases List.mem_append.1 h with h | h
    · exact .inl (List.mem_filter.1 h).1
    · exact .inr (List.mem_singleton.1 h)

theorem settle_ne_nil (vs : List Version) (v : Version) : settle vs v ≠ [] := by
  unfold settle
  split_ifs with h
  · rintro rfl
    simp at h
  · simp

/-- A version goes only for one that is at or above it. -/
theorem mem_settle_of_mem {vs : List Version} {v e : Version} (he : e ∈ vs)
    (hstay : e.clock ≤ v.clock → e = v) : e ∈ settle vs v := by
  unfold settle
  split_ifs with hsuper
  · exact he
  · rw [any_supersededBy_iff] at hsuper
    by_cases hle : e.clock ≤ v.clock
    · rw [hstay hle]
      simp
    · have hnot : ¬v.clock ≤ e.clock := fun hge =>
        hsuper ⟨e, he, lt_iff_le_not_ge.2 ⟨hge, hle⟩⟩
      have hapart : v.clock.compare e.clock = .concurrent :=
        Clock.compare_eq_concurrent_iff.2 ⟨hnot, hle⟩
      simp [he, hapart]

theorem mem_settle_self {vs : List Version} {v : Version}
    (h : ∀ e ∈ vs, ¬v.clock < e.clock) : v ∈ settle vs v := by
  unfold settle
  rw [if_neg]
  · simp
  · rw [any_supersededBy_iff]
    rintro ⟨e, he, hlt⟩
    exact h e he hlt

theorem reach_settle_self (vs : List Version) (v : Version) : Reach (settle vs v) v.clock := by
  by_cases h : ∃ e ∈ vs, v.clock < e.clock
  · obtain ⟨e, he, hlt⟩ := h
    refine ⟨e, ?_, hlt.le⟩
    unfold settle
    rwa [if_pos (any_supersededBy_iff.2 ⟨e, he, hlt⟩)]
  · refine ⟨v, mem_settle_self fun e he hlt => h ⟨e, he, hlt⟩, le_rfl⟩

/-- A version that descends from all others takes their place. -/
theorem settle_of_forall_lt {vs : List Version} {v : Version}
    (h : ∀ e ∈ vs, e.clock < v.clock) : settle vs v = [v] := by
  have hany : ¬vs.any (Table.supersededBy v) = true := by
    rw [any_supersededBy_iff]
    rintro ⟨e, he, hlt⟩
    exact (h e he).not_ge hlt.le
  have hnone : vs.filter (fun e => v.clock.compare e.clock = .concurrent) = [] := by
    refine List.filter_eq_nil_iff.2 fun e he hapart => ?_
    exact (Clock.compare_eq_concurrent_iff.1 (of_decide_eq_true hapart)).2 (h e he).le
  rw [settle, if_neg hany, hnone, List.nil_append]

/-- A version that no other is at or above comes last, and those that it dominates go. -/
theorem settle_of_not_reach {vs : List Version} {v : Version} (h : ¬Reach vs v.clock) :
    settle vs v = vs.filter (fun e => v.clock.compare e.clock ≠ .dominates) ++ [v] := by
  rw [settle, if_neg (not_any_supersededBy h)]
  congr 1
  refine List.filter_congr fun e he => decide_eq_decide.2 ?_
  rw [ne_eq, Clock.compare_eq_concurrent_iff, Clock.compare_eq_dominates_iff, lt_iff_le_not_ge]
  have hnot : ¬v.clock ≤ e.clock := fun hle => h ⟨e, he, hle⟩
  exact ⟨fun hapart hbelow => hapart.2 hbelow.1, fun hnlt => ⟨hnot, fun hge => hnlt ⟨hge, hnot⟩⟩⟩

theorem Reach.settle {vs : List Version} {c : Clock} (h : Reach vs c) (v : Version) :
    Reach (settle vs v) c := by
  obtain ⟨e, he, hc⟩ := h
  by_cases hle : e.clock ≤ v.clock
  · exact (reach_settle_self vs v).of_le (hc.trans hle)
  · exact ⟨e, mem_settle_of_mem he fun h => absurd h hle, hc⟩

/-- The versions of a location stand beside each other. -/
theorem pairwise_settle {vs : List Version} (h : vs.Pairwise Apart) (v : Version) :
    (settle vs v).Pairwise Apart := by
  unfold settle
  split_ifs
  · exact h
  · refine List.pairwise_append.2 ⟨h.filter _, List.pairwise_singleton .., ?_⟩
    intro e he w hw
    rw [List.mem_singleton.1 hw]
    have hapart := of_decide_eq_true (List.mem_filter.1 he).2
    exact (Clock.compare_eq_concurrent_iff.1 hapart).symm

end Version

namespace Table

theorem location_of_mem {t : Table} {l : Location} {v : Version} (h : v ∈ t.versions l) :
    v.location = l := by
  simpa using (List.mem_filter.1 h).2

theorem versions_put_of_ne (t : Table) {v : Version} {l : Location} (h : v.location ≠ l) :
    (t.put v).2.versions l = t.versions l := by
  unfold put
  split_ifs
  · rfl
  · have hkept : ∀ e : Version, (e.location = l ∧ survives v e = true) ↔ e.location = l := by
      intro e
      constructor
      · exact fun he => he.1
      · intro he
        have hne : e.location ≠ v.location := fun hev => h (hev.symm.trans he)
        exact ⟨he, by simp [survives, hne]⟩
    have hfilter : (t.records.filter (survives v)).filter (fun e => e.location = l) =
        t.records.filter fun e => e.location = l := by
      rw [List.filter_filter]
      exact List.filter_congr fun e _ => by simpa using hkept e
    simp [versions, hfilter, h]

theorem versions_put_self (t : Table) (v : Version) :
    (t.put v).2.versions v.location = Version.settle (t.versions v.location) v := by
  unfold put Version.settle
  split_ifs
  · rfl
  · have hfilter : (t.records.filter (survives v)).filter (fun e => e.location = v.location) =
        (t.versions v.location).filter fun e => v.clock.compare e.clock = .concurrent := by
      rw [versions, List.filter_filter, List.filter_filter]
      refine List.filter_congr fun e _ => ?_
      by_cases he : e.location = v.location <;> simp [survives, he]
    simp [versions] at hfilter ⊢
    rw [hfilter]

theorem put_fst_of_not_reach {t : Table} {v : Version}
    (h : ¬Version.Reach (t.versions v.location) v.clock) :
    (t.put v).1 = .stored (Version.countLiving (Version.settle (t.versions v.location) v)) := by
  rw [← versions_put_self]
  unfold put
  rw [if_neg (Version.not_any_supersededBy h)]

theorem versions_put (t : Table) (v : Version) (l : Location) :
    (t.put v).2.versions l =
      if v.location = l then Version.settle (t.versions l) v else t.versions l := by
  split_ifs with h
  · rw [← h, versions_put_self]
  · exact versions_put_of_ne t h

@[simp] theorem versions_empty (l : Location) : empty.versions l = [] := rfl

@[simp] theorem putAll_nil (t : Table) : t.putAll [] = t := rfl

@[simp] theorem putAll_cons (t : Table) (v : Version) (vs : List Version) :
    t.putAll (v :: vs) = (t.put v).2.putAll vs := rfl

theorem putAll_append (t : Table) (vs ws : List Version) :
    t.putAll (vs ++ ws) = (t.putAll vs).putAll ws :=
  List.foldl_append

theorem mem_versions_putAll {t : Table} {vs : List Version} {l : Location} {v : Version}
    (h : v ∈ (t.putAll vs).versions l) : v ∈ t.versions l ∨ v ∈ vs := by
  induction vs generalizing t with
  | nil => exact .inl h
  | cons w vs ih =>
      rcases ih h with h | h
      · rw [versions_put] at h
        split_ifs at h
        · exact (Version.mem_of_mem_settle h).imp_right fun hv => by simp [hv]
        · exact .inl h
      · exact .inr (List.mem_cons_of_mem _ h)

theorem versions_putAll_ne_nil_of_ne_nil {t : Table} {l : Location} (h : t.versions l ≠ [])
    (vs : List Version) : (t.putAll vs).versions l ≠ [] := by
  induction vs generalizing t with
  | nil => exact h
  | cons v vs ih =>
      refine ih ?_
      rw [versions_put]
      split_ifs
      · exact Version.settle_ne_nil _ v
      · exact h

theorem versions_putAll_ne_nil {t : Table} {vs : List Version} {v : Version} (h : v ∈ vs) :
    (t.putAll vs).versions v.location ≠ [] := by
  induction vs generalizing t with
  | nil => simp at h
  | cons w vs ih =>
      rcases List.mem_cons.1 h with rfl | h
      · refine versions_putAll_ne_nil_of_ne_nil ?_ vs
        rw [versions_put_self]
        exact Version.settle_ne_nil _ v
      · exact ih h

theorem versions_putAll_of_forall_ne {t : Table} {vs : List Version} {l : Location}
    (h : ∀ v ∈ vs, v.location ≠ l) : (t.putAll vs).versions l = t.versions l := by
  induction vs generalizing t with
  | nil => rfl
  | cons v vs ih =>
      rw [putAll_cons, ih fun w hw => h w (by simp [hw]), versions_put_of_ne t (h v (by simp))]

theorem versions_putAll (t : Table) (vs : List Version) (l : Location) :
    (t.putAll vs).versions l =
      (vs.filter (·.location = l)).foldl Version.settle (t.versions l) := by
  induction vs generalizing t with
  | nil => rfl
  | cons v vs ih =>
      rw [putAll_cons, ih, versions_put, List.filter_cons]
      by_cases hv : v.location = l
      · simp only [hv, if_true, decide_true, List.foldl_cons]
      · simp only [hv, if_false, decide_false, Bool.false_eq_true]

theorem versions_putAll_of_location {l : Location} {vs : List Version}
    (h : ∀ v ∈ vs, v.location = l) (t : Table) :
    (t.putAll vs).versions l = vs.foldl Version.settle (t.versions l) := by
  have hall : vs.filter (·.location = l) = vs :=
    List.filter_eq_self.2 fun v hv => decide_eq_true (h v hv)
  rw [versions_putAll, hall]

end Table

/-! ## Stores -/

theorem Store.putAll_eq (s : Store) (vs : List Version) :
    s.putAll vs = ⟨s.table.putAll vs, s.log ++ vs.flatMap Log.entry⟩ := by
  induction vs generalizing s with
  | nil => simp [putAll]
  | cons v vs ih =>
      have hcons : s.putAll (v :: vs) = (s.put v).2.putAll vs := rfl
      rw [hcons, ih, List.flatMap_cons, ← List.append_assoc]
      rfl

end SiblingStore
