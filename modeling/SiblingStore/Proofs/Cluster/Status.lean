import SiblingStore.Proofs.Cluster.Rereads
import SiblingStore.Proofs.Cluster.Writes
import Mathlib.Data.List.Nodup

/-!
# What a write reports

A write reports a conflict if a live replica holds another version beside it, where every
replica counts for itself. A read reconciles what all of them hold. So a write never hides
a conflict, but it reports one that no read finds where tombstones on other replicas bury
all that stands beside it.
-/

namespace SiblingStore.Cluster

open Version (Reach)

/-- Whether a tombstone that remains after `v` is written is at or above `w`. -/
def Buries (c : Cluster) (v w : Version) : Prop :=
  ∃ g ∈ reconcile ((c.write v).held v.location), g.tombstone = true ∧ w.coveredBy g = true

/-- Whether live replicas hold versions beside `v`, all of them buried. -/
def Haunted (c : Cluster) (v : Version) : Prop :=
  v.rivals (c.held v.location) ≠ [] ∧ ∀ w ∈ v.rivals (c.held v.location), c.Buries v w

instance (c : Cluster) (v w : Version) : Decidable (c.Buries v w) :=
  inferInstanceAs (Decidable (∃ g ∈ reconcile ((c.write v).held v.location), _))

instance (c : Cluster) (v : Version) : Decidable (c.Haunted v) :=
  inferInstanceAs (Decidable (_ ∧ _))

variable {c : Cluster} {v : Version}

/-! ## What is found after a write -/

theorem mem_held_write_iff (hlive : 0 < c.liveCount) (h : ¬Reach (c.held v.location) v.clock)
    {e : Version} : e ∈ (c.write v).held v.location ↔
      (e ∈ c.held v.location ∧ ¬e.clock < v.clock) ∨ e = v := by
  rw [held_eq, held_eq, answers_write_of_not_reach h]
  simp only [List.mem_flatten, List.mem_map, exists_exists_and_eq_and, List.mem_append,
    List.mem_filter, List.mem_singleton, decide_eq_true_eq, ne_eq,
    Clock.compare_eq_dominates_iff]
  constructor
  · rintro ⟨vs, hvs, ⟨he, hnot⟩ | rfl⟩
    · exact .inl ⟨⟨vs, hvs, he⟩, hnot⟩
    · exact .inr rfl
  · rintro (⟨⟨vs, hvs, he⟩, hnot⟩ | rfl)
    · exact ⟨vs, hvs, .inl ⟨he, hnot⟩⟩
    · rw [← length_answers c e.location] at hlive
      obtain ⟨vs, hvs⟩ := List.exists_mem_of_length_pos hlive
      exact ⟨vs, hvs, .inr rfl⟩

theorem mem_reconcile_write_self (hlive : 0 < c.liveCount)
    (h : ¬Reach (c.held v.location) v.clock) :
    v ∈ reconcile ((c.write v).held v.location) := by
  apply mem_reconcile ((mem_held_write_iff hlive h).2 (.inr rfl))
  intro w hw hle
  rcases (mem_held_write_iff hlive h).1 hw with ⟨hw, -⟩ | rfl
  · exact absurd ⟨w, hw, hle⟩ h
  · rfl

/-- Beside the write a read finds the rivals that are not buried, or what is above them. -/
theorem exists_found_iff (hv : v.tombstone = false) (hlive : 0 < c.liveCount)
    (h : ¬Reach (c.held v.location) v.clock) :
    (∃ w ∈ reconcile ((c.write v).held v.location), w.tombstone = false ∧ w ≠ v) ↔
      ∃ w ∈ v.rivals (c.held v.location), ¬c.Buries v w := by
  have hapart := pairwise_reconcile ((c.write v).held v.location)
  have hself := mem_reconcile_write_self hlive h
  constructor
  · rintro ⟨w, hw, hliving, hne⟩
    have hnot : ¬w.clock < v.clock := fun hlt => hne (eq_of_le_of_mem hapart hw hself hlt.le)
    rcases (mem_held_write_iff hlive h).1 (mem_of_mem_reconcile hw) with ⟨hheld, -⟩ | heq
    · refine ⟨w, Version.mem_rivals_iff.2 ⟨hheld, hliving, hnot⟩, ?_⟩
      rintro ⟨g, hg, hgrave, hcovered⟩
      rw [eq_of_le_of_mem hapart hw hg (Version.coveredBy_iff.1 hcovered), hgrave] at hliving
      cases hliving
    · exact absurd heq hne
  · rintro ⟨w, hw, hunburied⟩
    obtain ⟨hheld, -, hnot⟩ := Version.mem_rivals_iff.1 hw
    -- what remains above the rival is no tombstone, nor the write: the rival would reach it
    obtain ⟨g, hg, hle⟩ :=
      reach_reconcile_of_mem ((mem_held_write_iff hlive h).2 (.inl ⟨hheld, hnot⟩))
    refine ⟨g, hg, ?_, ?_⟩
    · rw [← Bool.not_eq_true]
      exact fun hgrave => hunburied ⟨g, hg, hgrave, Version.coveredBy_iff.2 hle⟩
    · rintro rfl
      by_contra
      exact hnot (lt_iff_le_not_ge.2 ⟨hle, fun hge => h ⟨w, hheld, hge⟩⟩)

theorem one_lt_length_iff_of_nodup {α : Type} [DecidableEq α] {xs : List α} {x : α}
    (hnodup : xs.Nodup) (hx : x ∈ xs) : 1 < xs.length ↔ ∃ y ∈ xs, y ≠ x := by
  have hlength : (xs.erase x).length = xs.length - 1 := List.length_erase_of_mem hx
  have hrest : 0 < (xs.erase x).length ↔ ∃ y, y ∈ xs.erase x := List.length_pos_iff_exists_mem
  simp only [hnodup.mem_erase_iff, hlength] at hrest
  rw [← Nat.sub_pos_iff_lt, hrest]
  exact exists_congr fun y => and_comm

theorem length_found (hv : v.tombstone = false) (hlive : 0 < c.liveCount)
    (h : ¬Reach (c.held v.location) v.clock) :
    0 < (replyOf (reconcile ((c.write v).held v.location))).versions.length ∧
      (1 < (replyOf (reconcile ((c.write v).held v.location))).versions.length ↔
        ∃ w ∈ v.rivals (c.held v.location), ¬c.Buries v w) := by
  have hnodup : ((reconcile ((c.write v).held v.location)).filter (!·.tombstone)).Nodup :=
    (List.Nodup.of_map (·.clock) (nodup_clocks (pairwise_reconcile _))).filter _
  have hself : v ∈ (reconcile ((c.write v).held v.location)).filter (!·.tombstone) :=
    List.mem_filter.2 ⟨mem_reconcile_write_self hlive h, by rw [hv]; rfl⟩
  rw [replyOf, List.length_map, one_lt_length_iff_of_nodup hnodup hself,
    ← exists_found_iff hv hlive h]
  refine ⟨List.length_pos_of_mem hself, ?_⟩
  simp only [List.mem_filter, Bool.not_eq_true', and_assoc]

/-! ## The result -/

/-- What a read tells right after a write is what the write tells if its body is asked for. -/
theorem reply_after_put (hc : Reachable c) {r : PutRequest} {stamp : Stamp} {reply : PutReply}
    (hput : (c.put r stamp).result = .ok reply) {context : Clock}
    (hcontext : Clock.ofBytes r.context = .ok context) {q : Quorum} {got : FetchReply}
    (hget : ((c.put r stamp).cluster.get r.location q).result = .ok got) :
    got = replyOf (reconcile ((c.write (c.putVersion r context stamp)).held r.location)) ∧
      (c.put { r with returnBody := true } stamp).result = .ok ⟨reply.conflict, some got⟩ := by
  have hwritten : Reachable (c.write (c.putVersion r context stamp)) := by
    rw [← put_cluster_of_bodiless hput hcontext]
    exact hc.apply (.put { r with returnBody := false } stamp)
  obtain ⟨hl, ⟨n, hn⟩, -⟩ := checks_of_put hput
  have hgot : got =
      replyOf (reconcile ((c.write (c.putVersion r context stamp)).held r.location)) := by
    rw [(get_ok hget).2.2.1, put_of_checks hl hn hcontext]
    dsimp only
    split_ifs
    · rw [(read_eq _ r.location).2, hwritten.reconcile_readOut]
    · rfl
  refine ⟨hgot, ?_⟩
  rw [put_of_checks (r := { r with returnBody := true }) hl hn hcontext,
    conflict_of_put hput hcontext, hgot, ← (read_eq _ r.location).1]
  rfl

/-- A write that reports no conflict stands alone for every read that follows. It reports one
that a read does not find exactly if there are versions beside it and all are buried. -/
theorem conflict_iff_unless_haunted (hc : Reachable c) {r : PutRequest} {stamp : Stamp}
    {reply : PutReply} (hput : (c.put r stamp).result = .ok reply)
    (hroom : c.HasRoom (.put r stamp)) {v : Version} (hv : c.version? (.put r stamp) = some v)
    {q : Quorum} {got : FetchReply}
    (hget : ((c.put r stamp).cluster.get r.location q).result = .ok got) :
    (c.put { r with returnBody := true } stamp).result = .ok ⟨reply.conflict, some got⟩ ∧
      0 < got.versions.length ∧ (1 < got.versions.length → reply.conflict = true) ∧
      ((reply.conflict = true ↔ 1 < got.versions.length) ↔ ¬c.Haunted v) := by
  obtain ⟨context, -, hcontext, -, rfl⟩ := version?_put hv
  obtain ⟨hgot, hbody⟩ := reply_after_put hc hput hcontext hget
  obtain ⟨-, -, hmet, hpos, -⟩ := put_ok hput
  have hconflict := conflict_eq_true_iff hput hroom hcontext
  obtain ⟨hfound, hmore⟩ : 0 < got.versions.length ∧ (1 < got.versions.length ↔
      ∃ w ∈ (c.putVersion r context stamp).rivals (c.held r.location),
        ¬c.Buries (c.putVersion r context stamp) w) := by
    rw [hgot]
    exact length_found (v := c.putVersion r context stamp) rfl (by omega)
      (not_reach_putVersion hroom hcontext)
  have hhonest : 1 < got.versions.length → reply.conflict = true := by
    intro hlt
    obtain ⟨w, hw, -⟩ := hmore.1 hlt
    exact hconflict.2 ⟨w, hw⟩
  refine ⟨hbody, hfound, hhonest, ?_⟩
  constructor
  · rintro htrue ⟨hrivals, hburied⟩
    obtain ⟨w, hw, hunburied⟩ :=
      hmore.1 (htrue.1 (hconflict.2 (List.exists_mem_of_ne_nil _ hrivals)))
    exact hunburied (hburied w hw)
  · intro hclear
    refine ⟨fun hreport => hmore.2 ?_, hhonest⟩
    obtain ⟨w, hw⟩ := hconflict.1 hreport
    by_contra hnone
    push Not at hnone
    exact hclear ⟨List.ne_nil_of_mem hw, hnone⟩

/-- A write that replica 2 keeps while it is deleted on the others. -/
def missedDeletion : List Deed :=
  [.put ⟨⟨"b", "k"⟩, [0], [], default, .all, false⟩ ⟨"first", 0⟩, .setUp 2 false,
    .delete ⟨"b", "k"⟩ .majority ⟨"second", 1⟩, .setUp 2 true]

def blindWrite : PutRequest := ⟨⟨"b", "k"⟩, [1], [], .ofSeed [], .all, false⟩

theorem not_conflict_iff_missedDeletion :
    let c := (empty {} default).after missedDeletion
    ∃ reply got, (c.put blindWrite ⟨"third", 2⟩).result = .ok reply ∧
      ((c.put blindWrite ⟨"third", 2⟩).cluster.get ⟨"b", "k"⟩ .all).result = .ok got ∧
      ¬(reply.conflict = true ↔ 1 < got.versions.length) := by
  intro c
  have hc : Reachable c := (Reachable.empty _ _).after missedDeletion
  obtain ⟨reply, hput⟩ := exists_of_isOk (x := (c.put blindWrite ⟨"third", 2⟩).result)
    (by decide +kernel)
  obtain ⟨got, hget⟩ := exists_of_isOk
    (x := ((c.put blindWrite ⟨"third", 2⟩).cluster.get ⟨"b", "k"⟩ .all).result)
    (by decide +kernel)
  have hroom : c.HasRoom (.put blindWrite ⟨"third", 2⟩) := by
    intro context hcontext
    injection hcontext with hcontext
    rw [← hcontext]
    unfold Clock.Room
    decide +kernel
  have hversion : c.version? (.put blindWrite ⟨"third", 2⟩) =
      some (c.putVersion blindWrite .empty ⟨"third", 2⟩) := by
    simp only [version?, hput]
    rfl
  have hhaunted : c.Haunted (c.putVersion blindWrite .empty ⟨"third", 2⟩) := by decide +kernel
  obtain ⟨-, -, -, hiff⟩ := conflict_iff_unless_haunted hc hput hroom hversion hget
  exact ⟨reply, got, hput, hget, fun htrue => hiff.1 htrue hhaunted⟩

end SiblingStore.Cluster
