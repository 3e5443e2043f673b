import SiblingStore.Proofs.Cluster.Answers
import SiblingStore.Proofs.Cluster.Deletion
import SiblingStore.Proofs.Cluster.Durability

/-!
# What a write leaves

The clock of a write is above or beside all that the live replicas hold of its location,
so each of them keeps it, last, and drops what it dominates. Replicas that are down and
other locations are left alone. A write on top of a read that asked all replicas which
are now up takes the place of everything there.
-/

namespace SiblingStore

open Version (Reach settle)

namespace Version

/-- The versions, tombstones apart, that stay beside `v` when it is written. -/
def rivals (v : Version) (vs : List Version) : List Version :=
  vs.filter fun w => !w.tombstone && v.clock.compare w.clock ≠ .dominates

theorem mem_rivals_iff {v w : Version} {vs : List Version} :
    w ∈ v.rivals vs ↔ w ∈ vs ∧ w.tombstone = false ∧ ¬w.clock < v.clock := by
  simp [rivals, Clock.compare_eq_dominates_iff]

theorem countLiving_settle {v : Version} {vs : List Version} (hv : v.tombstone = false)
    (h : ¬Reach vs v.clock) : countLiving (settle vs v) = (v.rivals vs).length + 1 := by
  rw [settle_of_not_reach h, countLiving, List.countP_append, List.countP_filter, rivals,
    List.countP_eq_length_filter]
  simp [hv]

end Version

namespace Cluster

/-! ## One replica -/

/-- Whether at most the versions of one location have changed, and those of a live
replica only. -/
structure Replica.Spares (l : Location) (r r' : Replica) : Prop where
  up : r'.up = r.up
  down : r.up = false → r' = r
  elsewhere : ∀ l', l' ≠ l → r'.store.versions l' = r.store.versions l'

theorem Replica.Spares.refl (l : Location) (r : Replica) : Replica.Spares l r r :=
  ⟨rfl, fun _ => rfl, fun _ _ => rfl⟩

theorem Replica.Spares.trans {l : Location} {r r₁ r₂ : Replica} (h : Replica.Spares l r r₁)
    (h' : Replica.Spares l r₁ r₂) : Replica.Spares l r r₂ where
  up := h'.up.trans h.up
  down hdown := (h'.down (h.up.trans hdown)).trans (h.down hdown)
  elsewhere l' hl' := (h'.elsewhere l' hl').trans (h.elsewhere l' hl')

theorem Replica.spares_write (v : Version) (r : Replica) :
    Replica.Spares v.location r (Replica.write v r) where
  up := Replica.up_write v r
  down hdown := Replica.write_of_down hdown v
  elsewhere l' hl' := by rw [Replica.versions_write, if_neg fun h => hl' h.2.symm]

theorem Replica.spares_repair {l : Location} {vs : List Version}
    (h : ∀ v ∈ vs, v.location = l) (r : Replica) :
    Replica.Spares l r (Replica.repair l vs r) where
  up := Replica.up_repair l vs r
  down hdown := Replica.repair_of_fresh (by rw [Replica.needsRepair, hdown, Bool.false_and])
  elsewhere l' hl' := by
    unfold Replica.repair
    split_ifs
    · rw [Store.putAll_eq]
      exact Table.versions_putAll_of_forall_ne fun v hv heq => hl' (heq.symm.trans (h v hv))
    · rfl

theorem Replica.livingAfter_of_not_reach {r : Replica} {v : Version}
    (hv : v.tombstone = false) (h : ¬Reach (r.store.versions v.location) v.clock) :
    Replica.livingAfter v r = (v.rivals (r.store.versions v.location)).length + 1 := by
  have hput : (r.store.put v).1 = .stored _ := Table.put_fst_of_not_reach h
  unfold Replica.livingAfter
  rw [hput]
  exact Version.countLiving_settle hv h

/-! ## What a write reports -/

theorem lt_foldl_max_iff {k m : Nat} {ns : List Nat} :
    k < ns.foldl max m ↔ k < m ∨ ∃ n ∈ ns, k < n := by
  induction ns generalizing m with
  | nil => simp
  | cons n ns ih => simp [ih, or_assoc]

variable {c : Cluster} {v : Version}

theorem not_reach_of_mem (h : ¬Reach (c.held v.location) v.clock) {r : Replica}
    (hr : r ∈ c.replicas) (hup : r.up = true) : ¬Reach (r.store.versions v.location) v.clock := by
  rintro ⟨e, he, hle⟩
  exact h ⟨e, mem_held_iff.2 ⟨r, hr, hup, he⟩, hle⟩

/-- A live replica reports more than one version exactly if one holds a rival of the write. -/
theorem one_lt_livingAfter_iff (hv : v.tombstone = false)
    (h : ¬Reach (c.held v.location) v.clock) :
    1 < c.livingAfter v ↔ ∃ w, w ∈ v.rivals (c.held v.location) := by
  have hliving : ∀ r ∈ c.replicas, r.up = true → (1 < Replica.livingAfter v r ↔
      ∃ w, w ∈ v.rivals (r.store.versions v.location)) := by
    intro r hr hup
    rw [Replica.livingAfter_of_not_reach hv (not_reach_of_mem h hr hup),
      ← List.length_pos_iff_exists_mem]
    omega
  rw [livingAfter, lt_foldl_max_iff]
  simp only [List.mem_map, List.mem_filter, Version.mem_rivals_iff, mem_held_iff] at hliving ⊢
  constructor
  · rintro (hlt | ⟨-, ⟨r, ⟨hr, hup⟩, rfl⟩, hlt⟩)
    · exact absurd hlt (by omega)
    · obtain ⟨w, hw, hrival⟩ := (hliving r hr hup).1 hlt
      exact ⟨w, ⟨r, hr, hup, hw⟩, hrival⟩
  · rintro ⟨w, ⟨r, hr, hup, hw⟩, hrival⟩
    exact .inr ⟨_, ⟨r, ⟨hr, hup⟩, rfl⟩, (hliving r hr hup).2 ⟨w, hw, hrival⟩⟩

theorem not_reach_putVersion {r : PutRequest} {stamp : Stamp} {context : Clock}
    (hroom : c.HasRoom (.put r stamp)) (hcontext : Clock.ofBytes r.context = .ok context) :
    ¬Reach (c.held r.location) (c.putVersion r context stamp).clock := by
  rintro ⟨e, he, hle⟩
  exact not_writeClock_le (hroom context hcontext) he hle

theorem conflict_of_put {r : PutRequest} {stamp : Stamp} {reply : PutReply} {context : Clock}
    (hput : (c.put r stamp).result = .ok reply)
    (hcontext : Clock.ofBytes r.context = .ok context) :
    reply.conflict = decide (1 < c.livingAfter (c.putVersion r context stamp)) := by
  obtain ⟨hl, ⟨n, hn⟩, -⟩ := checks_of_put hput
  rw [put_of_checks hl hn hcontext] at hput
  dsimp only at hput
  split_ifs at hput
  · injection hput with hreply
    rw [← hreply]
  · injection hput with hreply
    rw [← hreply]

theorem conflict_eq_true_iff {r : PutRequest} {stamp : Stamp} {reply : PutReply}
    {context : Clock} (hput : (c.put r stamp).result = .ok reply)
    (hroom : c.HasRoom (.put r stamp)) (hcontext : Clock.ofBytes r.context = .ok context) :
    reply.conflict = true ↔ ∃ w, w ∈ (c.putVersion r context stamp).rivals (c.held r.location) := by
  rw [conflict_of_put hput hcontext, decide_eq_true_eq]
  exact one_lt_livingAfter_iff rfl (not_reach_putVersion hroom hcontext)

/-! ## What a write does to a cluster -/

theorem put_cluster_of_bodiless {r : PutRequest} {stamp : Stamp} {reply : PutReply}
    {context : Clock} (hput : (c.put r stamp).result = .ok reply)
    (hcontext : Clock.ofBytes r.context = .ok context) :
    (c.put { r with returnBody := false } stamp).cluster =
      c.write (c.putVersion r context stamp) := by
  obtain ⟨hl, ⟨n, hn⟩, -⟩ := checks_of_put hput
  rw [put_of_checks (r := { r with returnBody := false }) hl hn hcontext]
  rfl

theorem answers_write_of_not_reach (h : ¬Reach (c.held v.location) v.clock) :
    (c.write v).answers v.location = (c.answers v.location).map fun vs =>
      vs.filter (fun e => v.clock.compare e.clock ≠ .dominates) ++ [v] := by
  rw [answers_write c rfl]
  refine List.map_congr_left fun vs hvs => Version.settle_of_not_reach ?_
  rintro ⟨e, he, hle⟩
  exact h ⟨e, List.mem_flatten.2 ⟨vs, hvs, he⟩, hle⟩

theorem exists_spares_readOut (c : Cluster) (l : Location) :
    ∃ f, (c.readOut l).replicas = c.replicas.map f ∧ ∀ r, Replica.Spares l r (f r) := by
  unfold readOut
  split_ifs
  · exact ⟨_, rfl, Replica.spares_repair location_of_mem_reconcile⟩
  · exact ⟨id, (List.map_id _).symm, Replica.Spares.refl l⟩

theorem spares_put {r : PutRequest} {stamp : Stamp} {reply : PutReply}
    (hput : (c.put r stamp).result = .ok reply) :
    List.Forall₂ (Replica.Spares r.location) c.replicas (c.put r stamp).cluster.replicas := by
  obtain ⟨context, -, -, -, -, hcluster⟩ := put_ok hput
  have hwrite : ∀ x, Replica.Spares r.location x
      (Replica.write (c.putVersion r context stamp) x) :=
    Replica.spares_write (c.putVersion r context stamp)
  rw [hcluster]
  split_ifs
  · obtain ⟨f, hf, hspares⟩ :=
      exists_spares_readOut (c.write (c.putVersion r context stamp)) r.location
    rw [hf, write, List.map_map]
    exact forall₂_map fun x _ => (hwrite x).trans (hspares _)
  · exact forall₂_map fun x _ => hwrite x

/-- What is above all that the live replicas hold takes its place. -/
theorem put_of_forall_lt {r : PutRequest} {stamp : Stamp} {reply : PutReply} {context : Clock}
    (hput : (c.put r stamp).result = .ok reply)
    (hroom : c.HasRoom (.put r stamp)) (hcontext : Clock.ofBytes r.context = .ok context)
    (h : ∀ e ∈ c.held r.location, e.clock < (c.putVersion r context stamp).clock) :
    reply.conflict = false ∧ ∀ vs ∈ (c.put r stamp).cluster.answers r.location,
      vs = [c.putVersion r context stamp] := by
  have hanswers : ∀ vs ∈ (c.write (c.putVersion r context stamp)).answers r.location,
      vs = [c.putVersion r context stamp] := by
    intro vs hvs
    have hlocation : (c.putVersion r context stamp).location = r.location := rfl
    rw [answers_write c hlocation] at hvs
    obtain ⟨ws, hws, rfl⟩ := List.mem_map.1 hvs
    exact Version.settle_of_forall_lt fun e he => h e (List.mem_flatten.2 ⟨ws, hws, he⟩)
  obtain ⟨context', hcontext', hmet, hpos, -, hcluster⟩ := put_ok hput
  obtain rfl : context = context' := by
    rw [hcontext] at hcontext'
    injection hcontext'
  constructor
  · rw [← Bool.not_eq_true, conflict_eq_true_iff hput hroom hcontext]
    rintro ⟨w, hw⟩
    obtain ⟨hw, -, hnot⟩ := Version.mem_rivals_iff.1 hw
    exact hnot (h w hw)
  · rw [hcluster]
    split_ifs
    · rw [answers_readOut_of_agree _ hanswers (List.pairwise_singleton ..)]
      · exact hanswers
      · rw [liveCount_write]
        omega
    · exact hanswers

/-! ## Writes on top of a read -/

theorem map_store_setUp (c : Cluster) (i : Nat) (up : Bool) :
    (c.setUp i up).replicas.map (·.store) = c.replicas.map (·.store) := by
  refine List.ext_getElem? fun j => ?_
  rw [setUp, List.getElem?_map, List.getElem?_map, List.getElem?_modify]
  cases c.replicas[j]? <;> by_cases hij : i = j <;> simp [hij]

theorem map_store_after {ds : List Deed} (h : ∀ d ∈ ds, ∃ i up, d = .setUp i up) :
    (c.after ds).replicas.map (·.store) = c.replicas.map (·.store) := by
  induction ds generalizing c with
  | nil => rfl
  | cons d ds ih =>
      obtain ⟨i, up, rfl⟩ := h d (by simp)
      rw [after_cons, ih fun d hd => h d (by simp [hd])]
      exact map_store_setUp c i up

/-- What replicas hold that a read asked, the read has found. -/
theorem held_subset_of_read {c₀ : Cluster} {l : Location} {ds : List Deed}
    (hds : ∀ d ∈ ds, ∃ i up, d = .setUp i up) (hc : c = (c₀.readOut l).after ds)
    (hup : ∀ i, c.isUp i = true → c₀.isUp i = true) : c.held l ⊆ c₀.held l := by
  intro e he
  obtain ⟨r, hr, hrup, hmem⟩ := mem_held_iff.1 he
  obtain ⟨i, hi⟩ := List.mem_iff_getElem?.1 hr
  obtain ⟨r₀, hr₀, hup₀⟩ := isUp_iff.1 (hup i (isUp_iff.2 ⟨r, hi, hrup⟩))
  obtain ⟨f, hf, hspares⟩ := exists_spares_readOut c₀ l
  -- going up and down moves no store, so the read left the same one at place `i`
  have hstore : (f r₀).store = r.store := by
    have hstores := congrArg (·[i]?) (map_store_after (c := c₀.readOut l) hds)
    rw [← hc, hf] at hstores
    simpa [hi, hr₀] using hstores.symm
  refine held_readOut_subset c₀ l (mem_held_iff.2 ⟨f r₀, ?_, ?_, ?_⟩)
  · rw [hf]
    exact List.mem_map_of_mem (List.mem_of_getElem? hr₀)
  · rw [(hspares r₀).up, hup₀]
  · rwa [hstore]

theorem lt_putVersion_of_get {c₀ : Cluster} {r : PutRequest} {stamp : Stamp} {q : Quorum}
    {got : FetchReply} {ds : List Deed} {context : Clock}
    (hget : (c₀.get r.location q).result = .ok got) (hbase : r.context = got.context)
    (hds : ∀ d ∈ ds, ∃ i up, d = .setUp i up)
    (hc : c = (c₀.get r.location q).cluster.after ds)
    (hup : ∀ i, c.isUp i = true → c₀.isUp i = true)
    (hroom : c.HasRoom (.put r stamp)) (hcontext : Clock.ofBytes r.context = .ok context) :
    ∀ e ∈ c.held r.location, e.clock < (c.putVersion r context stamp).clock := by
  obtain ⟨-, -, rfl, hcluster⟩ := get_ok hget
  rw [hcluster] at hc
  have hcover : coverOf (reconcile (c₀.held r.location)) = context := by
    rw [hbase, ofBytes_context] at hcontext
    injection hcontext
  intro e he
  have hfound : e ∈ c₀.held r.location := held_subset_of_read hds hc hup he
  have hbelow : e.clock ≤ context := hcover ▸ le_coverOf_reconcile ⟨e, hfound, le_rfl⟩
  exact lt_of_le_of_lt hbelow (context_lt_writeClock (hroom context hcontext))

/-! ## The result -/

/-- A write that is met has a clock that nothing held by a live replica equals or dominates.
Each live replica keeps what it does not dominate, in order, and the write after that;
replicas that are down and all other locations stay as they are. If its context is that of
a read that asked all replicas now up, and nothing but their being up has changed since, the
write alone is left and no conflict is reported. -/
theorem put_effect {r : PutRequest} {stamp : Stamp} {reply : PutReply}
    (hput : (c.put r stamp).result = .ok reply) (hroom : c.HasRoom (.put r stamp)) :
    ∃ context v c', Clock.ofBytes r.context = .ok context ∧ v = c.putVersion r context stamp ∧
      c' = (c.put { r with returnBody := false } stamp).cluster ∧
      (∀ e ∈ c.held r.location,
        v.clock.compare e.clock ≠ .equal ∧ v.clock.compare e.clock ≠ .dominatedBy) ∧
      (∀ x ∈ c.replicas, x.up = true → (x.store.put v).1 ≠ .discarded) ∧
      (c'.answers r.location = (c.answers r.location).map fun vs =>
        vs.filter (fun e => v.clock.compare e.clock ≠ .dominates) ++ [v]) ∧
      ((c.put r stamp).cluster =
        if r.returnBody = true then (c'.read r.location).2.1 else c') ∧
      List.Forall₂ (Replica.Spares r.location) c.replicas (c.put r stamp).cluster.replicas ∧
      ∀ (c₀ : Cluster) (q : Quorum) (got : FetchReply) (ds : List Deed),
        (c₀.get r.location q).result = .ok got → r.context = got.context →
        (∀ d ∈ ds, ∃ i up, d = .setUp i up) → c = (c₀.get r.location q).cluster.after ds →
        (∀ i, c.isUp i = true → c₀.isUp i = true) →
        reply.conflict = false ∧ ∀ vs ∈ (c.put r stamp).cluster.answers r.location, vs = [v] := by
  obtain ⟨context, hcontext, -, -, -, hcluster⟩ := put_ok hput
  have hnot : ¬Reach (c.held r.location) (c.putVersion r context stamp).clock :=
    not_reach_putVersion hroom hcontext
  refine ⟨context, _, _, hcontext, rfl, (put_cluster_of_bodiless hput hcontext).symm, ?_, ?_,
    answers_write_of_not_reach (v := c.putVersion r context stamp) hnot, ?_, spares_put hput, ?_⟩
  · intro e he
    have hle : ¬(c.putVersion r context stamp).clock ≤ e.clock := fun hle => hnot ⟨e, he, hle⟩
    exact ⟨fun heq => hle (Clock.compare_eq_equal_iff.1 heq).1,
      fun hdom => hle (Clock.compare_eq_dominatedBy_iff.1 hdom).le⟩
  · intro x hx hxup
    have hstored : (x.store.put _).1 = .stored _ :=
      Table.put_fst_of_not_reach
        (not_reach_of_mem (v := c.putVersion r context stamp) hnot hx hxup)
    rw [hstored]
    exact WriteEffect.noConfusion
  · rw [hcluster, (read_eq _ r.location).2]
  · intro c₀ q got ds hget hbase hds hc hup
    exact put_of_forall_lt hput hroom hcontext
      (lt_putVersion_of_get hget hbase hds hc hup hroom hcontext)

/-- A write that is deleted and followed by another while replica 2 is down. -/
def lagging : List Deed :=
  [.put ⟨⟨"b", "k"⟩, [0], [], default, .all, false⟩ ⟨"first", 0⟩, .setUp 2 false,
    .delete ⟨"b", "k"⟩ .majority ⟨"second", 1⟩,
    .put ⟨⟨"b", "k"⟩, [1], [], .ofSeed [], .majority, false⟩ ⟨"third", 2⟩, .setUp 2 true]

def onTop (context : Bytes) : PutRequest := ⟨⟨"b", "k"⟩, [2], context, default, .majority, true⟩

theorem put_effect_lagging :
    let c₀ := (empty {} default).after lagging
    let c := (c₀.get ⟨"b", "k"⟩ .all).cluster.after [.setUp 0 false]
    ∃ got reply v, (c₀.get ⟨"b", "k"⟩ .all).result = .ok got ∧
      (c.put (onTop got.context) ⟨"fourth", 3⟩).result = .ok reply ∧ reply.conflict = false ∧
      ∀ vs ∈ (c.put (onTop got.context) ⟨"fourth", 3⟩).cluster.answers ⟨"b", "k"⟩, vs = [v] := by
  intro c₀ c
  obtain ⟨got, hget⟩ := exists_of_isOk (x := (c₀.get ⟨"b", "k"⟩ .all).result) (by decide +kernel)
  have hgot : got = replyOf (reconcile (c₀.held ⟨"b", "k"⟩)) := (get_ok hget).2.2.1
  obtain ⟨reply, hput⟩ := exists_of_isOk
    (x := (c.put (onTop got.context) ⟨"fourth", 3⟩).result) (by rw [hgot]; decide +kernel)
  have hroom : c.HasRoom (.put (onTop got.context) ⟨"fourth", 3⟩) := by
    intro context hcontext
    change Clock.ofBytes got.context = .ok context at hcontext
    rw [hgot, ofBytes_context] at hcontext
    injection hcontext with hcontext
    rw [← hcontext, hgot]
    unfold Clock.Room
    decide +kernel
  have hup : ∀ i, c.isUp i = true → c₀.isUp i = true := by
    have hlive : ∀ i < 3, c.isUp i = true → c₀.isUp i = true := by decide +kernel
    intro i hi
    by_cases hlt : i < 3
    · exact hlive i hlt hi
    · have hsize : c.replicas.length = 3 := by decide +kernel
      obtain ⟨r, hr, -⟩ := isUp_iff.1 hi
      have hbound := (List.getElem?_eq_some_iff.1 hr).1
      omega
  obtain ⟨-, v, -, -, -, -, -, -, -, -, -, hread⟩ := put_effect hput hroom
  exact ⟨got, reply, v, hget, hput, hread c₀ .all got [.setUp 0 false] hget rfl
    (by simp) rfl hup⟩

end Cluster

end SiblingStore
