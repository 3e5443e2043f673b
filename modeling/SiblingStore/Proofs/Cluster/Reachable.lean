import SiblingStore.Proofs.Cluster.Run
import SiblingStore.Proofs.Cluster.Tops

/-!
# Clusters that can come about

A cluster starts without versions or over the logs that it finds, whatever these hold,
and is then read, written and taken apart in any order. The versions that a replica
holds of a location stand beside each other at any time.
-/

namespace SiblingStore

open Version (Apart)

/-! ## Stores that were opened -/

theorem Store.exists_table_of_openAt {directory : String} {place : Disk.Place} {s : Store}
    {events : List Event} (h : openAt directory place = .ok (s, events)) :
    ∃ vs, s.table = Table.empty.putAll vs := by
  unfold openAt at h
  dsimp only at h
  split at h
  · cases h
  · cases h
  · cases h
  · cases h
    exact ⟨_, rfl⟩

theorem Store.pairwise_versions_of_openAt {directory : String} {place : Disk.Place} {s : Store}
    {events : List Event} (h : openAt directory place = .ok (s, events)) (l : Location) :
    (s.versions l).Pairwise Apart := by
  obtain ⟨vs, htable⟩ := exists_table_of_openAt h
  rw [versions, htable, Table.versions_putAll, Table.versions_empty]
  exact pairwise_foldl_settle List.Pairwise.nil _

namespace Cluster

theorem exists_openAt_of_openReplicas {directory : String} {i : Nat} {places : List Disk.Place}
    {opened : List Replica × List Event} (h : openReplicas directory i places = .ok opened)
    {r : Replica} (hr : r ∈ opened.1) :
    ∃ directory place events, Store.openAt directory place = .ok (r.store, events) := by
  induction places generalizing i opened with
  | nil =>
      cases h
      exact absurd hr List.not_mem_nil
  | cons place places ih =>
      unfold openReplicas at h
      split at h
      · cases h
      · rename_i store events hstore
        cases hrest : openReplicas directory (i + 1) places with
        | error e =>
            rw [hrest] at h
            cases h
        | ok rest =>
            rw [hrest] at h
            cases h
            rcases List.mem_cons.1 hr with rfl | hr
            · exact ⟨_, _, _, hstore⟩
            · exact ih hrest hr

theorem pairwise_openAt {settings : ClusterSettings} {directory : String}
    {places : List Disk.Place} {node : ClientId} {c : Cluster} {events : List Event}
    (h : openAt settings directory places node = .ok (c, events)) (l : Location) :
    ∀ r ∈ c.replicas, (r.store.versions l).Pairwise Apart := by
  unfold openAt at h
  split at h
  · cases h
  · rename_i replicas opening hopened
    cases h
    intro r hr
    obtain ⟨_, _, _, hstore⟩ := exists_openAt_of_openReplicas hopened hr
    exact Store.pairwise_versions_of_openAt hstore l

/-! ## Clusters in use -/

/-- Whether there is a way to a cluster: it starts without versions or over logs of any
content, and is used. -/
inductive Reachable : Cluster → Prop
  | empty (settings : ClusterSettings) (node : ClientId) : Reachable (empty settings node)
  | opened {settings : ClusterSettings} {directory : String} {places : List Disk.Place}
      {node : ClientId} {c : Cluster} {events : List Event}
      (h : openAt settings directory places node = .ok (c, events)) : Reachable c
  | apply {c : Cluster} (d : Deed) : Reachable c → Reachable (c.apply d)

theorem Reachable.after {c : Cluster} (h : Reachable c) (ds : List Deed) :
    Reachable (c.after ds) := by
  induction ds generalizing c with
  | nil => exact h
  | cons d ds ih => exact ih (h.apply d)

theorem Reachable.pairwise {c : Cluster} (h : Reachable c) (l : Location) :
    ∀ r ∈ c.replicas, (r.store.versions l).Pairwise Apart := by
  induction h with
  | empty settings node => exact pairwise_empty settings node l
  | opened h => exact pairwise_openAt h l
  | apply d _ ih => exact pairwise_apply ih d

theorem Reachable.pairwise_answers {c : Cluster} (h : Reachable c) {l : Location}
    {vs : List Version} (hvs : vs ∈ c.answers l) : vs.Pairwise Apart := by
  obtain ⟨r, hr, rfl⟩ := List.mem_map.1 hvs
  exact h.pairwise l r (List.mem_filter.1 hr).1

end Cluster

end SiblingStore
