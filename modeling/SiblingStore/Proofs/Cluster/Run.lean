import SiblingStore.Proofs.Cluster.Requests

/-!
# Runs of a cluster

A cluster is read, written and taken apart in any order. Whatever is done to it,
each of its replicas only ever takes in versions that another holds or that the
step brings; what is true of a replica and stays true then is true of all runs.
-/

namespace SiblingStore

inductive Deed where
  | get (location : Location) (quorum : Quorum)
  | put (request : PutRequest) (stamp : Stamp)
  | delete (location : Location) (quorum : Quorum) (stamp : Stamp)
  | setUp (replica : Nat) (up : Bool)

namespace Cluster

def apply (c : Cluster) : Deed → Cluster
  | .get l q => (c.get l q).cluster
  | .put r stamp => (c.put r stamp).cluster
  | .delete l q stamp => (c.delete l q stamp).cluster
  | .setUp i up => c.setUp i up

def after (c : Cluster) (ds : List Deed) : Cluster := ds.foldl apply c

@[simp] theorem after_nil (c : Cluster) : c.after [] = c := rfl

@[simp] theorem after_cons (c : Cluster) (d : Deed) (ds : List Deed) :
    c.after (d :: ds) = (c.apply d).after ds := rfl

theorem after_append (c : Cluster) (ds es : List Deed) :
    c.after (ds ++ es) = (c.after ds).after es :=
  List.foldl_append

def version? (c : Cluster) : Deed → Option Version
  | .put r stamp =>
    match (c.put r stamp).result, Clock.ofBytes r.context with
    | .ok _, .ok context => some (c.putVersion r context stamp)
    | _, _ => none
  | .delete l q stamp =>
    match (c.delete l q stamp).result with
    | .ok _ => some (c.deleteVersion l stamp)
    | .error _ => none
  | .get .. | .setUp .. => none

/-! ## What replicas take in -/

/-- Whether some replica, up or down, holds a version. -/
def Holds (c : Cluster) (v : Version) : Prop := ∃ r ∈ c.replicas, v ∈ r.store.versions v.location

theorem holds_of_mem {c : Cluster} {r : Replica} (hr : r ∈ c.replicas) {l : Location}
    {v : Version} (h : v ∈ r.store.versions l) : c.Holds v :=
  ⟨r, hr, by rwa [Table.location_of_mem h]⟩

theorem holds_of_mem_held {c : Cluster} {l : Location} {v : Version} (h : v ∈ c.held l) :
    c.Holds v := by
  obtain ⟨r, hr, -, hv⟩ := mem_held_iff.1 h
  exact holds_of_mem hr hv

/-- Whether a replica has become another by taking in versions that were held or are fresh. -/
def Takes (c : Cluster) (fresh : Option Version) (r r' : Replica) : Prop :=
  ∃ vs, r'.store.table = r.store.table.putAll vs ∧ ∀ v ∈ vs, c.Holds v ∨ fresh = some v

theorem Takes.refl (c : Cluster) (fresh : Option Version) (r : Replica) : c.Takes fresh r r :=
  ⟨[], rfl, fun _ hv => absurd hv List.not_mem_nil⟩

def Grows (c : Cluster) (fresh : Option Version) (c' : Cluster) : Prop :=
  c'.settings = c.settings ∧ c'.node = c.node ∧
    List.Forall₂ (c.Takes fresh) c.replicas c'.replicas

theorem Grows.refl (c : Cluster) (fresh : Option Version) : c.Grows fresh c :=
  ⟨rfl, rfl, List.forall₂_same.2 fun r _ => Takes.refl c fresh r⟩

theorem Grows.size_eq {c c' : Cluster} {fresh : Option Version} (h : c.Grows fresh c') :
    c'.size = c.size :=
  h.2.2.length_eq.symm

theorem Grows.exists_takes {c c' : Cluster} {fresh : Option Version} (h : c.Grows fresh c')
    {r' : Replica} (hr' : r' ∈ c'.replicas) : ∃ r ∈ c.replicas, c.Takes fresh r r' := by
  obtain ⟨i, hi, rfl⟩ := List.getElem_of_mem hr'
  have hlength := h.2.2.length_eq
  exact ⟨_, List.getElem_mem _, h.2.2.get (by omega) hi⟩

theorem Grows.holds {c c' : Cluster} {fresh : Option Version} (h : c.Grows fresh c')
    {v : Version} (hv : c'.Holds v) : c.Holds v ∨ fresh = some v := by
  obtain ⟨r', hr', hmem⟩ := hv
  obtain ⟨r, hr, vs, htable, hvs⟩ := h.exists_takes hr'
  have hput : v ∈ (r.store.table.putAll vs).versions v.location := by
    rw [← htable]
    exact hmem
  rcases Table.mem_versions_putAll hput with hmem | hmem
  · exact .inl ⟨r, hr, hmem⟩
  · exact hvs v hmem

theorem Grows.trans {c c₁ c₂ : Cluster} {fresh : Option Version} (h : c.Grows fresh c₁)
    (h' : c₁.Grows none c₂) : c.Grows fresh c₂ := by
  refine ⟨h'.1.trans h.1, h'.2.1.trans h.2.1, ?_⟩
  have hcomp : ∀ {rs rs₁ rs₂ : List Replica}, List.Forall₂ (c.Takes fresh) rs rs₁ →
      List.Forall₂ (c₁.Takes none) rs₁ rs₂ → List.Forall₂ (c.Takes fresh) rs rs₂ := by
    intro rs rs₁ rs₂ hfirst hsecond
    induction hfirst generalizing rs₂ with
    | nil => cases hsecond; exact .nil
    | cons htakes _ ih =>
        cases hsecond with
        | cons htakes' hrest =>
            refine .cons ?_ (ih hrest)
            obtain ⟨vs, htable, hvs⟩ := htakes
            obtain ⟨ws, htable', hws⟩ := htakes'
            refine ⟨vs ++ ws, by rw [htable', htable, Table.putAll_append], fun v hv => ?_⟩
            rcases List.mem_append.1 hv with hv | hv
            · exact hvs v hv
            · rcases hws v hv with hheld | hnone
              · exact h.holds hheld
              · exact absurd hnone (by simp)
  exact hcomp h.2.2 h'.2.2

/-! ## What steps do -/

theorem forall₂_map {R : Replica → Replica → Prop} {f : Replica → Replica} {rs : List Replica}
    (h : ∀ r ∈ rs, R r (f r)) : List.Forall₂ R rs (rs.map f) := by
  rw [List.forall₂_map_right_iff]
  exact List.forall₂_same.2 h

theorem grows_write (c : Cluster) (v : Version) : c.Grows (some v) (c.write v) := by
  refine ⟨rfl, rfl, forall₂_map fun r _ => ?_⟩
  cases hup : r.up with
  | true =>
      rw [Replica.write_of_up hup]
      exact ⟨[v], rfl, fun w hw => .inr (by rw [List.mem_singleton.1 hw])⟩
  | false =>
      rw [Replica.write_of_down hup]
      exact Takes.refl ..

theorem grows_repair (c : Cluster) (l : Location) :
    c.Grows none (c.repair l (reconcile (c.held l))) := by
  refine ⟨rfl, rfl, forall₂_map fun r _ => ?_⟩
  cases hstale : Replica.needsRepair l (reconcile (c.held l)) r with
  | true =>
      rw [Replica.repair_of_stale hstale]
      refine ⟨_, by rw [Store.putAll_eq], fun v hv => .inl ?_⟩
      exact holds_of_mem_held (mem_of_mem_reconcile hv)
  | false =>
      rw [Replica.repair_of_fresh hstale]
      exact Takes.refl ..

theorem grows_readOut (c : Cluster) (l : Location) : c.Grows none (c.readOut l) := by
  unfold readOut
  split_ifs
  · exact grows_repair c l
  · exact Grows.refl ..

theorem grows_setUp (c : Cluster) (i : Nat) (up : Bool) : c.Grows none (c.setUp i up) := by
  refine ⟨rfl, rfl, ?_⟩
  have hmodify : ∀ (rs : List Replica) (j : Nat), List.Forall₂ (c.Takes none) rs
      (rs.modify j fun r => { r with up }) := by
    intro rs
    induction rs with
    | nil => exact fun j => by rw [List.modify_nil]; exact .nil
    | cons r rs ih =>
        intro j
        cases j with
        | zero =>
            exact .cons (Takes.refl c none r) (List.forall₂_same.2 fun r _ => Takes.refl c none r)
        | succ j => exact .cons (Takes.refl c none r) (ih j)
  exact hmodify c.replicas i

theorem version?_put {c : Cluster} {r : PutRequest} {stamp : Stamp} {v : Version}
    (h : c.version? (.put r stamp) = some v) :
    ∃ context reply, Clock.ofBytes r.context = .ok context ∧
      (c.put r stamp).result = .ok reply ∧ v = c.putVersion r context stamp := by
  rw [version?] at h
  split at h
  · rename_i reply context hreply hcontext
    injection h with h
    exact ⟨context, reply, hcontext, hreply, h.symm⟩
  · exact absurd h (by simp)

theorem version?_delete {c : Cluster} {l : Location} {q : Quorum} {stamp : Stamp} {v : Version}
    (h : c.version? (.delete l q stamp) = some v) :
    (c.delete l q stamp).result = .ok () ∧ v = c.deleteVersion l stamp := by
  rw [version?] at h
  split at h
  · rename_i reply hreply
    injection h with h
    exact ⟨hreply, h.symm⟩
  · exact absurd h (by simp)

theorem grows_apply (c : Cluster) (d : Deed) : c.Grows (c.version? d) (c.apply d) := by
  cases d with
  | get l q =>
      change c.Grows none (c.get l q).cluster
      cases hresult : (c.get l q).result with
      | error e =>
          rw [get_error hresult]
          exact Grows.refl ..
      | ok reply =>
          rw [(get_ok hresult).2.2.2]
          exact grows_readOut c l
  | put r stamp =>
      change c.Grows (c.version? (.put r stamp)) (c.put r stamp).cluster
      cases hresult : (c.put r stamp).result with
      | error e =>
          rw [put_error hresult]
          exact Grows.refl ..
      | ok reply =>
          obtain ⟨context, hcontext, -, -, -, hcluster⟩ := put_ok hresult
          have hversion : c.version? (.put r stamp) = some (c.putVersion r context stamp) := by
            simp only [version?, hresult, hcontext]
          rw [hversion, hcluster]
          split_ifs
          · exact (grows_write c _).trans (grows_readOut _ r.location)
          · exact grows_write c _
  | delete l q stamp =>
      change c.Grows (c.version? (.delete l q stamp)) (c.delete l q stamp).cluster
      cases hresult : (c.delete l q stamp).result with
      | error e =>
          rw [delete_error hresult]
          exact Grows.refl ..
      | ok _ =>
          have hversion : c.version? (.delete l q stamp) = some (c.deleteVersion l stamp) := by
            simp only [version?, hresult]
          rw [hversion, (delete_ok hresult).2.2]
          exact grows_write c _
  | setUp i up => exact grows_setUp c i up

/-! ## What stays true of replicas -/

/-- What holds of the versions of a location and survives every version that is
taken in holds afterwards. -/
theorem Takes.versions {c : Cluster} {fresh : Option Version} {r r' : Replica}
    (h : c.Takes fresh r r') {l : Location} {P : List Version → Prop}
    (hstep : ∀ vs v, (c.Holds v ∨ fresh = some v) → v.location = l → P vs →
      P (Version.settle vs v))
    (hP : P (r.store.versions l)) : P (r'.store.versions l) := by
  obtain ⟨vs, htable, hvs⟩ := h
  have hput : ∀ (ws : List Version) (t : Table), (∀ v ∈ ws, c.Holds v ∨ fresh = some v) →
      P (t.versions l) → P ((t.putAll ws).versions l) := by
    intro ws
    induction ws with
    | nil => exact fun t _ ht => ht
    | cons w ws ih =>
        intro t hws ht
        refine ih (t.put w).2 (fun v hv => hws v (by simp [hv])) ?_
        rw [Table.versions_put]
        split_ifs with hl
        · exact hstep _ w (hws w (by simp)) hl ht
        · exact ht
  have hversions : r'.store.versions l = (r.store.table.putAll vs).versions l := by
    rw [← htable]
    rfl
  rw [hversions]
  exact hput vs r.store.table hvs hP

theorem Grows.forall_versions {c c' : Cluster} {fresh : Option Version} (h : c.Grows fresh c')
    {l : Location} {P : List Version → Prop}
    (hstep : ∀ vs v, (c.Holds v ∨ fresh = some v) → v.location = l → P vs →
      P (Version.settle vs v))
    (hP : ∀ r ∈ c.replicas, P (r.store.versions l)) :
    ∀ r ∈ c'.replicas, P (r.store.versions l) := by
  intro r' hr'
  obtain ⟨r, hr, htakes⟩ := h.exists_takes hr'
  exact htakes.versions hstep (hP r hr)

theorem pairwise_apply {c : Cluster} {l : Location}
    (h : ∀ r ∈ c.replicas, (r.store.versions l).Pairwise Version.Apart) (d : Deed) :
    ∀ r ∈ (c.apply d).replicas, (r.store.versions l).Pairwise Version.Apart :=
  (grows_apply c d).forall_versions (fun _ v _ _ hvs => Version.pairwise_settle hvs v) h

theorem pairwise_empty (settings : ClusterSettings) (node : ClientId) (l : Location) :
    ∀ r ∈ (empty settings node).replicas, (r.store.versions l).Pairwise Version.Apart := by
  intro r hr
  rw [(List.mem_replicate.1 hr).2]
  exact List.Pairwise.nil

/-- The versions of a location stand beside each other, on every replica at any time. -/
theorem pairwise_versions {settings : ClusterSettings} {node : ClientId} (ds : List Deed)
    (l : Location) :
    ∀ r ∈ ((empty settings node).after ds).replicas,
      (r.store.versions l).Pairwise Version.Apart := by
  suffices hrun : ∀ c : Cluster, (∀ r ∈ c.replicas, (r.store.versions l).Pairwise Version.Apart) →
      ∀ r ∈ (c.after ds).replicas, (r.store.versions l).Pairwise Version.Apart from
    hrun _ (pairwise_empty settings node l)
  induction ds with
  | nil => exact fun c hc => hc
  | cons d ds ih => exact fun c hc => ih (c.apply d) (pairwise_apply hc d)

end Cluster

end SiblingStore
