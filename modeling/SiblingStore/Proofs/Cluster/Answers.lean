import SiblingStore.Proofs.Cluster.Requests

/-!
# What the live replicas answer

What a request does to a location it does to the answers of the live replicas: a
write settles in each of them, and a read leaves them be or hands on what others
answered. Whether a request is met depends on how many answers there are, which no
read or write changes.
-/

namespace SiblingStore.Cluster

open Version (Apart Reach settle)

theorem held_eq (c : Cluster) (l : Location) : c.held l = (c.answers l).flatten := rfl

theorem length_answers (c : Cluster) (l : Location) : (c.answers l).length = c.liveCount := by
  rw [answers, List.length_map, liveCount, List.countP_eq_length_filter]

theorem filter_up_map {f : Replica → Replica} (hf : ∀ r, (f r).up = r.up) (rs : List Replica) :
    (rs.map f).filter (·.up) = (rs.filter (·.up)).map f := by
  rw [List.filter_map]
  simp only [Function.comp_def, hf]

/-! ## Writes and reads -/

theorem answers_write (c : Cluster) {v : Version} {l : Location} (h : v.location = l) :
    (c.write v).answers l = (c.answers l).map fun vs => settle vs v := by
  have hup := filter_up_map (Replica.up_write v) c.replicas
  rw [answers, write]
  simp only [hup, answers, List.map_map]
  refine List.map_congr_left fun r hr => ?_
  have hversions := Replica.versions_write v r l
  rwa [if_pos ⟨(List.mem_filter.1 hr).2, h⟩] at hversions

theorem versions_repair {l : Location} {vs : List Version} (h : ∀ v ∈ vs, v.location = l)
    {r : Replica} (hup : r.up = true) :
    (Replica.repair l vs r).store.versions l =
      if isStale (r.store.versions l) vs = true then vs.foldl settle (r.store.versions l)
      else r.store.versions l := by
  rw [Replica.repair, Replica.needsRepair, hup, Bool.true_and]
  split_ifs
  · rw [Store.putAll_eq]
    exact Table.versions_putAll_of_location h r.store.table
  · rfl

theorem answers_repair (c : Cluster) {l : Location} {vs : List Version}
    (h : ∀ v ∈ vs, v.location = l) :
    (c.repair l vs).answers l =
      (c.answers l).map fun ws => if isStale ws vs = true then vs.foldl settle ws else ws := by
  have hup := filter_up_map (Replica.up_repair l vs) c.replicas
  rw [answers, repair]
  simp only [hup, answers, List.map_map]
  exact List.map_congr_left fun r hr => versions_repair h (List.mem_filter.1 hr).2

theorem location_of_mem_reconcile {c : Cluster} {l : Location} :
    ∀ v ∈ reconcile (c.held l), v.location = l :=
  fun _ hv => location_of_mem_held (mem_of_mem_reconcile hv)

/-- A read leaves an answer as it is or makes it settle what is reconciled. -/
theorem exists_of_mem_answers_readOut {c : Cluster} {l : Location} {ws : List Version}
    (h : ws ∈ (c.readOut l).answers l) :
    ∃ vs ∈ c.answers l, ws = vs ∨ ws = (reconcile (c.held l)).foldl settle vs := by
  unfold readOut at h
  split_ifs at h
  · rw [answers_repair c location_of_mem_reconcile] at h
    obtain ⟨vs, hvs, rfl⟩ := List.mem_map.1 h
    refine ⟨vs, hvs, ?_⟩
    split_ifs
    · exact .inr rfl
    · exact .inl rfl
  · exact ⟨ws, h, .inl rfl⟩

theorem mem_foldl_settle {vs ws : List Version} {v : Version} (h : v ∈ ws.foldl settle vs) :
    v ∈ vs ∨ v ∈ ws := by
  induction ws generalizing vs with
  | nil => exact .inl h
  | cons w ws ih =>
      rcases ih h with h | h
      · exact (Version.mem_of_mem_settle h).imp_right fun hv => by simp [hv]
      · exact .inr (List.mem_cons_of_mem _ h)

theorem reach_foldl_settle {vs : List Version} {k : Clock} (h : Reach vs k)
    (ws : List Version) : Reach (ws.foldl settle vs) k := by
  induction ws generalizing vs with
  | nil => exact h
  | cons w ws ih => exact ih (h.settle w)

theorem held_readOut_subset (c : Cluster) (l : Location) : (c.readOut l).held l ⊆ c.held l := by
  intro v hv
  rw [held_eq] at hv ⊢
  obtain ⟨ws, hws, hmem⟩ := List.mem_flatten.1 hv
  obtain ⟨vs, hvs, heq⟩ := exists_of_mem_answers_readOut hws
  rcases heq with rfl | rfl
  · exact List.mem_flatten.2 ⟨_, hvs, hmem⟩
  · rcases mem_foldl_settle hmem with hmem | hmem
    · exact List.mem_flatten.2 ⟨_, hvs, hmem⟩
    · exact mem_of_mem_reconcile hmem

theorem reach_held_readOut {c : Cluster} {l : Location} {k : Clock} (h : Reach (c.held l) k) :
    Reach ((c.readOut l).held l) k := by
  unfold readOut
  split_ifs
  · obtain ⟨v, hv, hle⟩ := h
    obtain ⟨vs, hvs, hmem⟩ := List.mem_flatten.1 hv
    have hkept : Reach (if isStale vs (reconcile (c.held l)) = true then
        (reconcile (c.held l)).foldl settle vs else vs) k := by
      split_ifs
      · exact reach_foldl_settle ⟨v, hmem, hle⟩ _
      · exact ⟨v, hmem, hle⟩
    obtain ⟨w, hw, hwk⟩ := hkept
    refine ⟨w, ?_, hwk⟩
    rw [held_eq, answers_repair c location_of_mem_reconcile]
    exact List.mem_flatten.2 ⟨_, List.mem_map.2 ⟨vs, hvs, rfl⟩, hw⟩
  · exact h

/-! ## Answers that agree -/

theorem reconcile_held_of_agree {c : Cluster} {l : Location} {vs : List Version}
    (hlive : 0 < c.liveCount) (h : ∀ ws ∈ c.answers l, ws = vs) (hapart : vs.Pairwise Apart) :
    reconcile (c.held l) = vs := by
  rw [← length_answers c l] at hlive
  obtain ⟨ws, rest, hanswers⟩ := List.exists_cons_of_length_pos hlive
  rw [hanswers] at h
  have hfirst : ws = vs := h ws (by simp)
  have hreach : ∀ w ∈ rest.flatten, Reach vs w.clock := by
    intro w hw
    obtain ⟨us, hus, hmem⟩ := List.mem_flatten.1 hw
    rw [h us (by simp [hus])] at hmem
    exact ⟨w, hmem, le_rfl⟩
  rw [held_eq, hanswers, hfirst, List.flatten_cons]
  exact reconcile_append_of_reach hapart hreach

theorem isStale_self (vs : List Version) : isStale vs vs = false :=
  isStale_eq_false_iff.2 ⟨rfl, fun v hv => ⟨v, hv, rfl⟩⟩

theorem answers_readOut_of_agree {c : Cluster} {l : Location} {vs : List Version}
    (hlive : 0 < c.liveCount) (h : ∀ ws ∈ c.answers l, ws = vs) (hapart : vs.Pairwise Apart) :
    (c.readOut l).answers l = c.answers l := by
  have hreconcile := reconcile_held_of_agree hlive h hapart
  unfold readOut
  split_ifs
  · rw [answers_repair c location_of_mem_reconcile, hreconcile]
    refine (List.map_congr_left fun ws hws => ?_).trans (List.map_id _)
    rw [h ws hws, isStale_self]
    rfl
  · rfl

/-! ## Requests that are met -/

def SameShape (c c' : Cluster) : Prop :=
  c'.settings = c.settings ∧ c'.replicas.map (·.up) = c.replicas.map (·.up)

theorem SameShape.refl (c : Cluster) : c.SameShape c := ⟨rfl, rfl⟩

theorem SameShape.trans {c c₁ c₂ : Cluster} (h : c.SameShape c₁) (h' : c₁.SameShape c₂) :
    c.SameShape c₂ :=
  ⟨h'.1.trans h.1, h'.2.trans h.2⟩

theorem sameShape_write (c : Cluster) (v : Version) : c.SameShape (c.write v) := by
  refine ⟨rfl, ?_⟩
  rw [write, List.map_map]
  exact List.map_congr_left fun r _ => Replica.up_write v r

theorem sameShape_readOut (c : Cluster) (l : Location) : c.SameShape (c.readOut l) := by
  unfold readOut
  split_ifs
  · refine ⟨rfl, ?_⟩
    rw [repair, List.map_map]
    exact List.map_congr_left fun r _ => Replica.up_repair l _ r
  · exact SameShape.refl c

theorem SameShape.liveCount_eq {c c' : Cluster} (h : c.SameShape c') :
    c'.liveCount = c.liveCount := by
  have hcount : ∀ c : Cluster, c.liveCount = (c.replicas.map (·.up)).countP id := by
    intro c
    rw [List.countP_map]
    rfl
  rw [hcount, hcount, h.2]

theorem SameShape.checkQuorum_eq {c c' : Cluster} (h : c.SameShape c') (q : Quorum)
    (standard : Nat) : c'.checkQuorum q standard = c.checkQuorum q standard := by
  have hsize : c'.size = c.size := by
    have hlength := congrArg List.length h.2
    rwa [List.length_map, List.length_map] at hlength
  unfold checkQuorum
  rw [hsize, h.liveCount_eq]

def MeetsRead (c : Cluster) (q : Quorum) : Prop :=
  (c.checkQuorum q c.settings.readQuorum).isOk = true

def MeetsWrite (c : Cluster) (q : Quorum) : Prop :=
  (c.checkQuorum q c.settings.writeQuorum).isOk = true

instance (c : Cluster) (q : Quorum) : Decidable (c.MeetsRead q) :=
  inferInstanceAs (Decidable (_ = true))

instance (c : Cluster) (q : Quorum) : Decidable (c.MeetsWrite q) :=
  inferInstanceAs (Decidable (_ = true))

theorem SameShape.meetsRead {c c' : Cluster} (h : c.SameShape c') {q : Quorum}
    (hq : c.MeetsRead q) : c'.MeetsRead q := by
  unfold MeetsRead
  rwa [h.checkQuorum_eq, h.1]

theorem SameShape.meetsWrite {c c' : Cluster} (h : c.SameShape c') {q : Quorum}
    (hq : c.MeetsWrite q) : c'.MeetsWrite q := by
  unfold MeetsWrite
  rwa [h.checkQuorum_eq, h.1]

theorem exists_quorum_of_isOk {c : Cluster} {q : Quorum} {standard : Nat}
    (h : (c.checkQuorum q standard).isOk = true) :
    ∃ n, c.checkQuorum q standard = .ok n ∧ 0 < c.liveCount := by
  obtain ⟨n, hn⟩ := exists_of_isOk h
  obtain ⟨-, hpos, -, hlive⟩ := checkQuorum_ok hn
  exact ⟨n, hn, by omega⟩

theorem MeetsRead.liveCount_pos {c : Cluster} {q : Quorum} (h : c.MeetsRead q) :
    0 < c.liveCount := by
  obtain ⟨_, -, hlive⟩ := exists_quorum_of_isOk h
  exact hlive

theorem exists_get_ok {c : Cluster} {l : Location} {q : Quorum} (hl : checkLocation l = .ok ())
    (h : c.MeetsRead q) : ∃ reply, (c.get l q).result = .ok reply := by
  obtain ⟨n, hn, -⟩ := exists_quorum_of_isOk h
  simp only [get, hl, hn]
  exact ⟨_, rfl⟩

theorem exists_put_ok {c : Cluster} {r : PutRequest} {context : Clock} (stamp : Stamp)
    (hl : checkLocation r.location = .ok ()) (h : c.MeetsWrite r.quorum)
    (hcontext : Clock.ofBytes r.context = .ok context) :
    ∃ reply, (c.put r stamp).result = .ok reply := by
  obtain ⟨n, hn, -⟩ := exists_quorum_of_isOk h
  simp only [put, hl, hn, hcontext]
  split_ifs <;> exact ⟨_, rfl⟩

end SiblingStore.Cluster
