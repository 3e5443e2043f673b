import SiblingStore.Proofs.Cluster.Answers
import Mathlib.Data.List.Induction

/-!
# Tops

The tops of a list of versions are those that none of it dominates. A table that the
list is written to keeps the last top of each clock, and reconciling the list keeps the
first, both in the order of the list. So whatever the order, both keep the same clocks.
-/

namespace SiblingStore

open Version (Apart Reach settle)
open Cluster (mem_foldl_settle reach_foldl_settle)

def Version.isTop (xs : List Version) (v : Version) : Bool :=
  xs.all fun w => w.clock.compare v.clock ≠ .dominates

def Version.isAlone (xs : List Version) (v : Version) : Bool :=
  xs.all fun w => w.clock.compare v.clock ≠ .equal

/-- The tops of a list, in order, that no rival equals in clock, where the rivals of a
version depend on where it stands. -/
def topsAmong (rivals : List Version → Nat → List Version) (xs : List Version) : List Version :=
  (xs.zipIdx.filter fun p => p.1.isTop xs && p.1.isAlone (rivals xs p.2)).map (·.1)

/-- The tops of a list, in order, that no later version equals in clock. -/
def lastTops : List Version → List Version := topsAmong fun xs i => xs.drop (i + 1)

def firstTops : List Version → List Version := topsAmong fun xs i => xs.take i

/-- Whether two lists of versions have the same clocks, as far as counting goes. -/
def SameClocks (vs ws : List Version) : Prop :=
  (∀ v ∈ vs, ∃ w ∈ ws, v.clock.compare w.clock = .equal) ∧
    ∀ w ∈ ws, ∃ v ∈ vs, w.clock.compare v.clock = .equal

namespace Version

theorem isTop_iff {xs : List Version} {v : Version} :
    v.isTop xs = true ↔ ∀ w ∈ xs, ¬v.clock < w.clock := by
  simp [isTop, Clock.compare_eq_dominates_iff]

theorem isTop_append_singleton (xs : List Version) (v x : Version) :
    v.isTop (xs ++ [x]) = (v.isTop xs && decide (x.clock.compare v.clock ≠ .dominates)) := by
  simp [isTop]

theorem isAlone_append_singleton (xs : List Version) (v x : Version) :
    v.isAlone (xs ++ [x]) = (v.isAlone xs && decide (x.clock.compare v.clock ≠ .equal)) := by
  simp [isAlone]

/-- Nothing is at or above the tops of a list that are alone in it. -/
theorem isTop_and_isAlone_iff {xs : List Version} {v : Version} :
    (v.isTop xs && v.isAlone xs) = true ↔ ¬Reach xs v.clock := by
  rw [Bool.and_eq_true, isTop_iff, isAlone, List.all_eq_true]
  simp only [Reach, not_exists, not_and, decide_eq_true_eq, ne_eq, Clock.compare_eq_equal_iff]
  constructor
  · rintro ⟨htop, halone⟩ w hw hle
    by_cases hge : w.clock ≤ v.clock
    · exact halone w hw hge hle
    · exact htop w hw (lt_iff_le_not_ge.2 ⟨hle, hge⟩)
  · exact fun h => ⟨fun w hw hlt => h w hw hlt.le, fun w hw _ => h w hw⟩

theorem isTop_append_self (xs : List Version) (x : Version) : x.isTop (xs ++ [x]) = x.isTop xs := by
  simp [isTop_append_singleton, Clock.compare_self]

end Version

/-! ## One version more -/

theorem mem_topsAmong {rivals : List Version → Nat → List Version} {xs : List Version}
    {v : Version} (h : v ∈ topsAmong rivals xs) : v ∈ xs ∧ v.isTop xs = true := by
  obtain ⟨p, hp, rfl⟩ := List.mem_map.1 h
  obtain ⟨hp, htop⟩ := List.mem_filter.1 hp
  exact ⟨List.fst_mem_of_mem_zipIdx hp, (Bool.and_eq_true_iff.1 htop).1⟩

/-- Whether the tops so far remain tops, and whether the new version is one, is all that has
to be looked at. -/
theorem topsAmong_append_singleton {rivals : List Version → Nat → List Version}
    {xs : List Version} {x : Version} {P : Version → Bool}
    (h : ∀ v i, i < xs.length →
      (v.isTop (xs ++ [x]) && v.isAlone (rivals (xs ++ [x]) i)) =
        (P v && (v.isTop xs && v.isAlone (rivals xs i)))) :
    topsAmong rivals (xs ++ [x]) = (topsAmong rivals xs).filter P ++
      if x.isTop xs && x.isAlone (rivals (xs ++ [x]) xs.length) then [x] else [] := by
  have hold : xs.zipIdx.filter (fun p => p.1.isTop (xs ++ [x]) &&
        p.1.isAlone (rivals (xs ++ [x]) p.2)) =
      (xs.zipIdx.filter fun p => p.1.isTop xs && p.1.isAlone (rivals xs p.2)).filter
        fun p => P p.1 := by
    rw [List.filter_filter]
    refine List.filter_congr fun p hp => h p.1 p.2 ?_
    simpa using List.snd_lt_of_mem_zipIdx hp
  unfold topsAmong
  rw [List.zipIdx_append, List.filter_append, List.map_append, hold, List.filter_map]
  congr 1
  simp only [Nat.zero_add, List.zipIdx_cons, List.zipIdx_nil, List.filter_cons, List.filter_nil,
    Version.isTop_append_self]
  split_ifs <;> rfl

theorem lastTops_append_singleton (xs : List Version) (x : Version) :
    lastTops (xs ++ [x]) =
      (lastTops xs).filter (fun v => x.clock.compare v.clock ≠ .dominates &&
        x.clock.compare v.clock ≠ .equal) ++ if x.isTop xs then [x] else [] := by
  unfold lastTops
  rw [topsAmong_append_singleton (P := fun v => x.clock.compare v.clock ≠ .dominates &&
    x.clock.compare v.clock ≠ .equal)]
  · simp [Version.isAlone]
  · intro v i hi
    have hdrop : (xs ++ [x]).drop (i + 1) = xs.drop (i + 1) ++ [x] :=
      List.drop_append_of_le_length hi
    rw [hdrop, Version.isTop_append_singleton, Version.isAlone_append_singleton]
    ac_rfl

theorem firstTops_append_singleton (xs : List Version) (x : Version) :
    firstTops (xs ++ [x]) =
      (firstTops xs).filter (fun v => x.clock.compare v.clock ≠ .dominates) ++
        if x.isTop xs && x.isAlone xs then [x] else [] := by
  unfold firstTops
  rw [topsAmong_append_singleton (P := fun v => x.clock.compare v.clock ≠ .dominates)]
  · simp
  · intro v i hi
    have htake : (xs ++ [x]).take i = xs.take i := List.take_append_of_le_length (Nat.le_of_lt hi)
    rw [htake, Version.isTop_append_singleton]
    ac_rfl

/-! ## Writing a list to a table -/

theorem pairwise_foldl_settle {vs : List Version} (h : vs.Pairwise Apart) (xs : List Version) :
    (xs.foldl settle vs).Pairwise Apart := by
  induction xs generalizing vs with
  | nil => exact h
  | cons x xs ih => exact ih (Version.pairwise_settle h x)

theorem mem_of_mem_foldl_settle {xs : List Version} {v : Version}
    (h : v ∈ xs.foldl settle []) : v ∈ xs :=
  (mem_foldl_settle h).resolve_left List.not_mem_nil

theorem reach_foldl_settle_of_mem {xs : List Version} {v : Version} (h : v ∈ xs) :
    Reach (xs.foldl settle []) v.clock := by
  obtain ⟨before, after, rfl⟩ := List.append_of_mem h
  rw [List.foldl_append, List.foldl_cons]
  exact reach_foldl_settle (Version.reach_settle_self _ v) after

theorem foldl_settle_eq_lastTops (xs : List Version) : xs.foldl settle [] = lastTops xs := by
  induction xs using List.reverseRecOn with
  | nil => rfl
  | append_singleton xs x ih =>
      have hreach : ∀ w ∈ xs, Reach (lastTops xs) w.clock := fun w hw =>
        ih ▸ reach_foldl_settle_of_mem hw
      rw [List.foldl_append, List.foldl_cons, List.foldl_nil, ih, lastTops_append_singleton]
      by_cases htop : x.isTop xs = true
      · have hbelow := Version.isTop_iff.1 htop
        have hany : ¬(lastTops xs).any (Table.supersededBy x) = true := by
          rw [Version.any_supersededBy_iff]
          rintro ⟨v, hv, hlt⟩
          exact hbelow v (mem_topsAmong hv).1 hlt
        rw [settle, if_neg hany, if_pos htop]
        congr 1
        refine List.filter_congr fun v hv => ?_
        have hnot : x.clock.compare v.clock ≠ .dominatedBy := fun hlt =>
          hbelow v (mem_topsAmong hv).1 (Clock.compare_eq_dominatedBy_iff.1 hlt)
        cases hcompare : x.clock.compare v.clock with
        | dominatedBy => exact absurd hcompare hnot
        | equal => simp
        | dominates => simp
        | concurrent => simp
      · obtain ⟨w, hw, hxw⟩ : ∃ w ∈ xs, x.clock < w.clock := by
          simpa [Version.isTop_iff] using htop
        obtain ⟨k, hk, hwk⟩ := hreach w hw
        have hlt : x.clock < k.clock := lt_of_lt_of_le hxw hwk
        rw [settle, if_pos (Version.any_supersededBy_iff.2 ⟨k, hk, hlt⟩), if_neg htop,
          List.append_nil]
        refine (List.filter_eq_self.2 fun v hv => ?_).symm
        have hnot : ¬v.clock ≤ x.clock := fun hle =>
          Version.isTop_iff.1 (mem_topsAmong hv).2 k (mem_topsAmong hk).1 (lt_of_le_of_lt hle hlt)
        cases hcompare : x.clock.compare v.clock with
        | equal => exact absurd (Clock.compare_eq_equal_iff.1 hcompare).2 hnot
        | dominates => exact absurd (Clock.compare_eq_dominates_iff.1 hcompare).le hnot
        | dominatedBy => rfl
        | concurrent => rfl

theorem reconcile_eq_firstTops (xs : List Version) : reconcile xs = firstTops xs := by
  induction xs using List.reverseRecOn with
  | nil => rfl
  | append_singleton xs x ih =>
      have hreach : Reach (firstTops xs) x.clock ↔ Reach xs x.clock :=
        ih ▸ reach_reconcile_iff
      rw [reconcile, List.foldl_append, List.foldl_cons, List.foldl_nil, ← reconcile, ih,
        firstTops_append_singleton]
      by_cases hx : Reach xs x.clock
      · obtain ⟨k, hk, hxk⟩ := hreach.2 hx
        rw [absorb_of_reach ⟨k, hk, hxk⟩, if_neg fun h => Version.isTop_and_isAlone_iff.1 h hx,
          List.append_nil]
        refine (List.filter_eq_self.2 fun v hv => ?_).symm
        have hnot : x.clock.compare v.clock ≠ .dominates := by
          intro hdom
          have hlt : v.clock < k.clock :=
            lt_of_lt_of_le (Clock.compare_eq_dominates_iff.1 hdom) hxk
          exact Version.isTop_iff.1 (mem_topsAmong hv).2 k (mem_topsAmong hk).1 hlt
        simpa using hnot
      · rw [absorb_of_not_reach fun h => hx (hreach.1 h),
          if_pos (Version.isTop_and_isAlone_iff.2 hx)]

/-! ## Any order -/

theorem sameClocks_of_reach {vs ws : List Version} (hvs : vs.Pairwise Apart)
    (hws : ws.Pairwise Apart) (hvw : ∀ v ∈ vs, Reach ws v.clock)
    (hwv : ∀ w ∈ ws, Reach vs w.clock) : SameClocks vs ws := by
  have hhalf : ∀ {vs ws : List Version}, vs.Pairwise Apart → (∀ v ∈ vs, Reach ws v.clock) →
      (∀ w ∈ ws, Reach vs w.clock) → ∀ v ∈ vs, ∃ w ∈ ws, v.clock.compare w.clock = .equal := by
    intro vs ws hvs hvw hwv v hv
    obtain ⟨w, hw, hle⟩ := hvw v hv
    obtain ⟨u, hu, hwu⟩ := hwv w hw
    have heq : v = u := eq_of_le_of_mem hvs hv hu (hle.trans hwu)
    exact ⟨w, hw, Clock.compare_eq_equal_iff.2 ⟨hle, heq ▸ hwu⟩⟩
  exact ⟨hhalf hvs hvw hwv, hhalf hws hwv hvw⟩

/-- What a table keeps of the versions of a location that are written to it in some order,
among others, and what reconciling them in that order keeps: the tops, of equal clocks the
last and the first. These are the same clocks for every order. -/
theorem table_and_reconcile_keep_tops {l : Location} {writes xs ys : List Version}
    (hwrites : writes.filter (·.location = l) = ys) (hperm : ys.Perm xs) :
    (Table.empty.putAll writes).versions l = lastTops ys ∧ reconcile ys = firstTops ys ∧
      ∀ kept ∈ [(Table.empty.putAll writes).versions l, reconcile ys],
        SameClocks kept (reconcile xs) ∧
        (kept.Pairwise fun v w => v.clock.compare w.clock = .concurrent) ∧
        ∀ x ∈ xs, ∃ v ∈ kept,
          x.clock.compare v.clock = .equal ∨ x.clock.compare v.clock = .dominatedBy := by
  have htable : (Table.empty.putAll writes).versions l = ys.foldl settle [] := by
    rw [Table.versions_putAll, hwrites, Table.versions_empty]
  refine ⟨htable.trans (foldl_settle_eq_lastTops ys), reconcile_eq_firstTops ys, ?_⟩
  have hkept : ∀ kept : List Version, kept.Pairwise Apart → kept ⊆ ys →
      (∀ y ∈ ys, Reach kept y.clock) → SameClocks kept (reconcile xs) ∧
        (kept.Pairwise fun v w => v.clock.compare w.clock = .concurrent) ∧
        ∀ x ∈ xs, ∃ v ∈ kept,
          x.clock.compare v.clock = .equal ∨ x.clock.compare v.clock = .dominatedBy := by
    intro kept hapart hsubset hreach
    refine ⟨?_, hapart.imp fun h => Clock.compare_eq_concurrent_iff.2 h, fun x hx => ?_⟩
    · refine sameClocks_of_reach hapart (pairwise_reconcile xs) (fun v hv => ?_) fun w hw => ?_
      · exact reach_reconcile_of_mem (hperm.mem_iff.1 (hsubset hv))
      · exact hreach w (hperm.mem_iff.2 (mem_of_mem_reconcile hw))
    · obtain ⟨v, hv, hle⟩ := hreach x (hperm.mem_iff.2 hx)
      exact ⟨v, hv, by simpa [Version.coveredBy, or_comm] using Version.coveredBy_iff.2 hle⟩
  intro kept hmem
  rcases List.mem_pair.1 hmem with rfl | rfl
  · rw [htable]
    exact hkept _ (pairwise_foldl_settle List.Pairwise.nil ys)
      (fun v hv => mem_of_mem_foldl_settle hv) fun y hy => reach_foldl_settle_of_mem hy
  · exact hkept _ (pairwise_reconcile ys) (fun v hv => mem_of_mem_reconcile hv)
      fun y hy => reach_reconcile_of_mem hy

/-- Two versions of equal clocks, one with an entry of zero, and one beside them. -/
def equalWrites : List Version :=
  [([("a", 1)], "first"), ([("a", 1), ("b", 0)], "second"), ([("c", 1)], "third")].map fun p =>
    .live ⟨"b", "k"⟩ [] (.ofList p.1) ⟨p.2, 0⟩

theorem table_and_reconcile_keep_equalWrites :
    let elsewhere := Version.live ⟨"b", "other"⟩ [] (.ofList [("a", 2)]) ⟨"fourth", 0⟩
    (Table.empty.putAll (elsewhere :: equalWrites)).versions ⟨"b", "k"⟩ = lastTops equalWrites ∧
      (lastTops equalWrites).map (·.tag) = ["second", "third"] ∧
      reconcile equalWrites = firstTops equalWrites ∧
      (firstTops equalWrites).map (·.tag) = ["first", "third"] := by
  intro elsewhere
  have hwrites : (elsewhere :: equalWrites).filter (·.location = ⟨"b", "k"⟩) = equalWrites := by
    decide +kernel
  obtain ⟨htable, hreconcile, -⟩ :=
    table_and_reconcile_keep_tops hwrites (List.Perm.refl equalWrites)
  exact ⟨htable, by decide +kernel, hreconcile, by decide +kernel⟩

end SiblingStore
