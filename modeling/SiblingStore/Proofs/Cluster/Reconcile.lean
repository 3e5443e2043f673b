import SiblingStore.Cluster.Reconcile
import SiblingStore.Proofs.Table.Versions
import Mathlib.Data.List.Pairwise
import Mathlib.Data.List.Perm.Subperm

/-!
# What reconciling keeps

Reconciled versions stand beside each other and cover all that they were made
from. A replica that is given them holds them afterwards and nothing else.
-/

namespace SiblingStore

open Version (Apart Reach settle)

theorem Version.coveredBy_iff {v e : Version} : v.coveredBy e = true ↔ v.clock ≤ e.clock := by
  simp only [coveredBy, Bool.or_eq_true, decide_eq_true_eq, Clock.compare_eq_dominatedBy_iff,
    Clock.compare_eq_equal_iff]
  constructor
  · rintro (h | h)
    · exact h.le
    · exact h.1
  · intro h
    by_cases hge : e.clock ≤ v.clock
    · exact .inr ⟨h, hge⟩
    · exact .inl (lt_iff_le_not_ge.2 ⟨h, hge⟩)

theorem any_coveredBy_iff {kept : List Version} {v : Version} :
    kept.any v.coveredBy = true ↔ Reach kept v.clock := by
  simp [Reach, Version.coveredBy_iff]

/-! ## One version more -/

theorem absorb_of_reach {kept : List Version} {v : Version} (h : Reach kept v.clock) :
    absorb kept v = kept := by
  rw [absorb, if_pos (any_coveredBy_iff.2 h)]

theorem absorb_of_not_reach {kept : List Version} {v : Version} (h : ¬Reach kept v.clock) :
    absorb kept v = kept.filter (fun e => v.clock.compare e.clock ≠ .dominates) ++ [v] := by
  rw [absorb, if_neg fun hany => h (any_coveredBy_iff.1 hany)]

theorem mem_of_mem_absorb {kept : List Version} {v w : Version} (h : w ∈ absorb kept v) :
    w ∈ kept ∨ w = v := by
  by_cases hreach : Reach kept v.clock
  · rw [absorb_of_reach hreach] at h
    exact .inl h
  · rw [absorb_of_not_reach hreach] at h
    rcases List.mem_append.1 h with h | h
    · exact .inl (List.mem_filter.1 h).1
    · exact .inr (List.mem_singleton.1 h)

theorem mem_absorb_of_mem {kept : List Version} {v e : Version} (he : e ∈ kept)
    (h : ¬e.clock < v.clock) : e ∈ absorb kept v := by
  by_cases hreach : Reach kept v.clock
  · rwa [absorb_of_reach hreach]
  · have hstay : v.clock.compare e.clock ≠ .dominates := fun hdom =>
      h (Clock.compare_eq_dominates_iff.1 hdom)
    rw [absorb_of_not_reach hreach]
    simp [he, hstay]

theorem reach_absorb_self (kept : List Version) (v : Version) : Reach (absorb kept v) v.clock := by
  by_cases hreach : Reach kept v.clock
  · rwa [absorb_of_reach hreach]
  · rw [absorb_of_not_reach hreach]
    exact ⟨v, by simp, le_rfl⟩

theorem reach_absorb {kept : List Version} {c : Clock} (h : Reach kept c) (v : Version) :
    Reach (absorb kept v) c := by
  obtain ⟨e, he, hc⟩ := h
  by_cases hlt : e.clock < v.clock
  · exact (reach_absorb_self kept v).of_le (hc.trans hlt.le)
  · exact ⟨e, mem_absorb_of_mem he hlt, hc⟩

theorem pairwise_absorb {kept : List Version} (h : kept.Pairwise Apart) (v : Version) :
    (absorb kept v).Pairwise Apart := by
  by_cases hreach : Reach kept v.clock
  · rwa [absorb_of_reach hreach]
  · rw [absorb_of_not_reach hreach]
    refine List.pairwise_append.2 ⟨h.filter _, List.pairwise_singleton .., ?_⟩
    intro e he w hw
    rw [List.mem_singleton.1 hw]
    obtain ⟨he, hstay⟩ := List.mem_filter.1 he
    have hnot : ¬v.clock ≤ e.clock := fun hle => hreach ⟨e, he, hle⟩
    refine ⟨fun hle => ?_, hnot⟩
    have hdom := Clock.compare_eq_dominates_iff.2 (lt_iff_le_not_ge.2 ⟨hle, hnot⟩)
    simp [hdom] at hstay

/-! ## All versions -/

theorem mem_of_mem_foldl_absorb {kept vs : List Version} {w : Version}
    (h : w ∈ vs.foldl absorb kept) : w ∈ kept ∨ w ∈ vs := by
  induction vs generalizing kept with
  | nil => exact .inl h
  | cons v vs ih =>
      rcases ih h with h | h
      · exact (mem_of_mem_absorb h).imp_right fun hw => by simp [hw]
      · exact .inr (List.mem_cons_of_mem _ h)

theorem mem_of_mem_reconcile {vs : List Version} {w : Version} (h : w ∈ reconcile vs) :
    w ∈ vs := by
  rcases mem_of_mem_foldl_absorb h with h | h
  · exact absurd h List.not_mem_nil
  · exact h

theorem reach_foldl_absorb {kept : List Version} {c : Clock} (h : Reach kept c)
    (vs : List Version) : Reach (vs.foldl absorb kept) c := by
  induction vs generalizing kept with
  | nil => exact h
  | cons v vs ih => exact ih (reach_absorb h v)

theorem reach_reconcile_of_mem {vs : List Version} {v : Version} (h : v ∈ vs) :
    Reach (reconcile vs) v.clock := by
  obtain ⟨before, after, rfl⟩ := List.append_of_mem h
  rw [reconcile, List.foldl_append, List.foldl_cons]
  exact reach_foldl_absorb (reach_absorb_self _ v) after

theorem reach_reconcile_iff {vs : List Version} {c : Clock} :
    Reach (reconcile vs) c ↔ Reach vs c := by
  constructor
  · rintro ⟨v, hv, hc⟩
    exact ⟨v, mem_of_mem_reconcile hv, hc⟩
  · rintro ⟨v, hv, hc⟩
    exact (reach_reconcile_of_mem hv).of_le hc

theorem pairwise_foldl_absorb {kept : List Version} (h : kept.Pairwise Apart)
    (vs : List Version) : (vs.foldl absorb kept).Pairwise Apart := by
  induction vs generalizing kept with
  | nil => exact h
  | cons v vs ih => exact ih (pairwise_absorb h v)

theorem pairwise_reconcile (vs : List Version) : (reconcile vs).Pairwise Apart :=
  pairwise_foldl_absorb List.Pairwise.nil vs

/-- A version that no other is at or above remains. -/
theorem mem_reconcile {vs : List Version} {v : Version} (h : v ∈ vs)
    (hmax : ∀ w ∈ vs, v.clock ≤ w.clock → w = v) : v ∈ reconcile vs := by
  obtain ⟨w, hw, hle⟩ := reach_reconcile_of_mem h
  rwa [← hmax w (mem_of_mem_reconcile hw) hle]

theorem foldl_absorb_of_pairwise {kept vs : List Version}
    (h : (kept ++ vs).Pairwise Apart) : vs.foldl absorb kept = kept ++ vs := by
  induction vs generalizing kept with
  | nil => simp
  | cons v vs ih =>
      have hapart : ∀ e ∈ kept, Apart e v := fun e he =>
        (List.pairwise_append.1 h).2.2 e he v (by simp)
      have hnot : ¬Reach kept v.clock := by
        rintro ⟨e, he, hle⟩
        exact (hapart e he).2 hle
      have hall : kept.filter (fun e => v.clock.compare e.clock ≠ .dominates) = kept := by
        refine List.filter_eq_self.2 fun e he => decide_eq_true fun hdom => ?_
        exact (hapart e he).1 (Clock.compare_eq_dominates_iff.1 hdom).le
      rw [List.foldl_cons, absorb_of_not_reach hnot, hall, ih (by simpa using h)]
      simp

theorem foldl_absorb_of_reach {kept vs : List Version} (h : ∀ v ∈ vs, Reach kept v.clock) :
    vs.foldl absorb kept = kept := by
  induction vs with
  | nil => rfl
  | cons v vs ih =>
      rw [List.foldl_cons, absorb_of_reach (h v (by simp)), ih fun w hw => h w (by simp [hw])]

/-- Nothing is added to versions that cover the others. -/
theorem reconcile_append_of_reach {vs ws : List Version} (h : vs.Pairwise Apart)
    (hreach : ∀ w ∈ ws, Reach vs w.clock) : reconcile (vs ++ ws) = vs := by
  have hkept : ([] ++ vs).Pairwise Apart := h
  rw [reconcile, List.foldl_append, foldl_absorb_of_pairwise hkept]
  exact foldl_absorb_of_reach hreach

/-! ## Handing over what was reconciled -/

theorem eq_of_le_of_mem {vs : List Version} (h : vs.Pairwise Apart) {v w : Version}
    (hv : v ∈ vs) (hw : w ∈ vs) (hle : v.clock ≤ w.clock) : v = w := by
  by_contra hne
  exact (h.forall hv hw hne).1 hle

theorem settle_of_pairwise {theirs kept : List Version} {v : Version}
    (hkept : ∀ e ∈ kept, Apart e v) (htheirs : ∀ t ∈ theirs, ¬v.clock < t.clock) :
    settle (theirs ++ kept) v =
      theirs.filter (fun t => v.clock.compare t.clock = .concurrent) ++ (kept ++ [v]) := by
  have hany : ¬(theirs ++ kept).any (Table.supersededBy v) = true := by
    rw [Version.any_supersededBy_iff]
    rintro ⟨e, he, hlt⟩
    rcases List.mem_append.1 he with he | he
    · exact htheirs e he hlt
    · exact (hkept e he).2 hlt.le
  have hall : kept.filter (fun e => v.clock.compare e.clock = .concurrent) = kept := by
    refine List.filter_eq_self.2 fun e he => decide_eq_true ?_
    exact Clock.compare_eq_concurrent_iff.2 (hkept e he).symm
  rw [settle, if_neg hany, List.filter_append, hall, List.append_assoc]

theorem foldl_settle_append {theirs kept vs : List Version} (h : (kept ++ vs).Pairwise Apart)
    (hbelow : ∀ t ∈ theirs, Reach (kept ++ vs) t.clock)
    (hgone : ∀ t ∈ theirs, ∀ e ∈ kept, ¬t.clock ≤ e.clock) :
    vs.foldl settle (theirs ++ kept) = kept ++ vs := by
  induction vs generalizing theirs kept with
  | nil =>
      have hnone : theirs = [] := by
        refine List.eq_nil_iff_forall_not_mem.2 fun t ht => ?_
        obtain ⟨e, he, hle⟩ := hbelow t ht
        exact hgone t ht e (by simpa using he) hle
      simp [hnone]
  | cons v vs ih =>
      have hkept : ∀ e ∈ kept, Apart e v := fun e he =>
        (List.pairwise_append.1 h).2.2 e he v (by simp)
      have htheirs : ∀ t ∈ theirs, ¬v.clock < t.clock := by
        intro t ht hlt
        obtain ⟨e, he, hle⟩ := hbelow t ht
        have heq := eq_of_le_of_mem h (by simp) he (hlt.le.trans hle)
        rw [← heq] at hle
        exact hlt.not_ge hle
      have hassoc : kept ++ v :: vs = (kept ++ [v]) ++ vs := by simp
      rw [List.foldl_cons, settle_of_pairwise hkept htheirs, hassoc]
      rw [hassoc] at h hbelow
      refine ih h (fun t ht => hbelow t (List.mem_filter.1 ht).1) fun t ht e he => ?_
      obtain ⟨ht, hapart⟩ := List.mem_filter.1 ht
      rcases List.mem_append.1 he with he | he
      · exact hgone t ht e he
      · rw [List.mem_singleton.1 he]
        exact (Clock.compare_eq_concurrent_iff.1 (of_decide_eq_true hapart)).2

/-- Versions that stand beside each other and cover what was there take its place. -/
theorem foldl_settle_of_reach {theirs vs : List Version} (h : vs.Pairwise Apart)
    (hbelow : ∀ t ∈ theirs, Reach vs t.clock) : vs.foldl settle theirs = vs := by
  have hkept : ([] ++ vs).Pairwise Apart := h
  have hsettle := foldl_settle_append hkept hbelow fun _ _ e he => absurd he List.not_mem_nil
  simpa using hsettle

/-! ## Staleness -/

theorem nodup_clocks {vs : List Version} (h : vs.Pairwise Apart) :
    (vs.map (·.clock)).Nodup := by
  rw [List.Nodup, List.pairwise_map]
  exact h.imp fun hapart heq => hapart.1 (le_of_eq heq)

theorem isStale_eq_false_iff {theirs reconciled : List Version} :
    isStale theirs reconciled = false ↔
      theirs.length = reconciled.length ∧ ∀ r ∈ reconciled, ∃ t ∈ theirs, t.clock = r.clock := by
  simp [isStale]

/-- Versions that come first and are not stale are all that remains. -/
theorem reconcile_append_of_not_isStale {vs ws : List Version} (h : vs.Pairwise Apart)
    (hfresh : isStale vs (reconcile (vs ++ ws)) = false) : reconcile (vs ++ ws) = vs := by
  refine reconcile_append_of_reach h fun w hw => ?_
  obtain ⟨e, he, hle⟩ := reach_reconcile_of_mem (List.mem_append_right vs hw)
  obtain ⟨t, ht, heq⟩ := (isStale_eq_false_iff.1 hfresh).2 e he
  exact ⟨t, ht, heq ▸ hle⟩

/-- Versions that come first end up as what is reconciled, whether they are stale or not. -/
theorem repaired_eq_reconcile {vs : List Version} (h : vs.Pairwise Apart) (ws : List Version) :
    (if isStale vs (reconcile (vs ++ ws)) = true then (reconcile (vs ++ ws)).foldl settle vs
      else vs) = reconcile (vs ++ ws) := by
  split_ifs with hstale
  · refine foldl_settle_of_reach (pairwise_reconcile _) fun t ht => ?_
    exact reach_reconcile_of_mem (List.mem_append_left ws ht)
  · exact (reconcile_append_of_not_isStale h (Bool.not_eq_true _ ▸ hstale)).symm

theorem clocks_perm_of_not_isStale {theirs reconciled : List Version}
    (h : reconciled.Pairwise Apart) (hfresh : isStale theirs reconciled = false) :
    List.Perm (reconciled.map (·.clock)) (theirs.map (·.clock)) := by
  obtain ⟨hlength, hclocks⟩ := isStale_eq_false_iff.1 hfresh
  have hsubset : reconciled.map (·.clock) ⊆ theirs.map (·.clock) := by
    intro c hc
    obtain ⟨r, hr, rfl⟩ := List.mem_map.1 hc
    obtain ⟨t, ht, heq⟩ := hclocks r hr
    exact List.mem_map.2 ⟨t, ht, heq⟩
  refine (List.subperm_of_subset (nodup_clocks h) hsubset).perm_of_length_le ?_
  rw [List.length_map, List.length_map]
  exact Nat.le_of_eq hlength

end SiblingStore
