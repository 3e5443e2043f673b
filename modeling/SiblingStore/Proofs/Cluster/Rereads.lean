import SiblingStore.Proofs.Cluster.Convergence
import SiblingStore.Proofs.Cluster.Reachable

/-!
# Reads that are repeated

A read that repairs leaves behind what it told: the first live replica answers with the
reconciled versions, the others hold nothing above them, and none is stale. So the same
read finds the same again and has nothing left to do.
-/

namespace SiblingStore.Cluster

open Version (Apart)

/-- After a read a location reconciles to what the read found. -/
theorem Reachable.reconcile_readOut {c : Cluster} (hc : Reachable c) (l : Location) :
    reconcile ((c.readOut l).held l) = reconcile (c.held l) := by
  have hreach : ∀ w ∈ (c.readOut l).held l, Version.Reach (reconcile (c.held l)) w.clock :=
    fun w hw => reach_reconcile_of_mem (held_readOut_subset c l hw)
  unfold readOut at hreach ⊢
  split_ifs at hreach ⊢
  · rw [held_eq, answers_repair c location_of_mem_reconcile] at hreach ⊢
    cases hanswers : c.answers l with
    | nil =>
        rw [held_eq, hanswers]
        rfl
    | cons vs rest =>
        have hapart : vs.Pairwise Apart :=
          hc.pairwise_answers (l := l) (by rw [hanswers]; exact List.mem_cons_self)
        have hheld : c.held l = vs ++ rest.flatten := by
          rw [held_eq, hanswers, List.flatten_cons]
        -- the first answer is what is reconciled, and covers the others
        have hfirst := repaired_eq_reconcile hapart rest.flatten
        rw [← hheld] at hfirst
        rw [hanswers, List.map_cons, hfirst, List.flatten_cons] at hreach
        rw [List.map_cons, hfirst, List.flatten_cons]
        exact reconcile_append_of_reach (pairwise_reconcile _) fun w hw =>
          hreach w (List.mem_append_right _ hw)
  · rfl

end SiblingStore.Cluster
