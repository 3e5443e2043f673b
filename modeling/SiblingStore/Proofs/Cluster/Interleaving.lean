import SiblingStore.Proofs.Cluster.Answers
import SiblingStore.Proofs.Cluster.Turns
import SiblingStore.Proofs.Text.Hex
import Mathlib.Data.Set.Function

/-!
# Writers that take turns

Writers read a location and write it on top of what they were told, in any order of
their turns. Against what was held at the start, the clock of each write counts one
write more of its writer and of those whose writes it saw. So one write is above
another exactly if it saw it, and what is held in the end are the writes that nobody
saw who wrote afterwards.
-/

namespace SiblingStore

open Version (Apart Reach settle)

/-! ## Clocks that are one write ahead -/

/-- Whether a clock counts one write more than `base` of some writers and as many of others. -/
structure Clock.Ahead (base : Clock) (actors : Set String) (c : Clock) : Prop where
  more : ∀ actor ∈ actors, (c.get actor).toNat = (base.get actor).toNat + 1
  same : ∀ actor ∉ actors, (c.get actor).toNat = (base.get actor).toNat

namespace Clock

variable {base : Clock} {s s' : Set String} {c c' : Clock}

theorem Ahead.le_iff (h : base.Ahead s c) (h' : base.Ahead s' c') : c ≤ c' ↔ s ⊆ s' := by
  constructor
  · intro hle actor hs
    by_contra hs'
    have hcount := toNat_get_le hle actor
    rw [h.more actor hs, h'.same actor hs'] at hcount
    omega
  · intro hsub actor
    rw [UInt64.le_iff_toNat_le]
    by_cases hs : actor ∈ s
    · rw [h.more actor hs, h'.more actor (hsub hs)]
    · rw [h.same actor hs]
      by_cases hs' : actor ∈ s'
      · rw [h'.more actor hs']
        omega
      · rw [h'.same actor hs']

theorem Ahead.base_le (h : base.Ahead s c) : base ≤ c := by
  have hbase : base.Ahead ∅ base :=
    ⟨fun _ hactor => absurd hactor (Set.notMem_empty _), fun _ _ => rfl⟩
  exact (hbase.le_iff h).2 (Set.empty_subset s)

theorem ahead_empty (h : base ≤ c) (h' : c ≤ base) : base.Ahead ∅ c := by
  refine ⟨fun _ hactor => absurd hactor (Set.notMem_empty _), fun actor _ => ?_⟩
  exact Nat.le_antisymm (toNat_get_le h' actor) (toNat_get_le h actor)

end Clock

namespace Cluster

variable {base : Clock} {s : Set String}

theorem ahead_writeClock {actor : String} {context : Clock} {held : List Version}
    (hcontext : base.Ahead s context) (hactor : actor ∉ s) (hroom : base.Room actor)
    (hheld : ∀ v ∈ held, v.clock.get actor ≤ base.get actor) :
    base.Ahead (insert actor s) (writeClock actor context held) := by
  have hbase : ((writeBase actor context held).get actor).toNat = (base.get actor).toNat := by
    have hhighest := UInt64.le_iff_toNat_le.1 (highest_le hheld)
    rw [get_writeBase_self, Clock.toNat_max, hcontext.same actor hactor]
    exact Nat.max_eq_left hhighest
  have hown : ((writeClock actor context held).get actor).toNat =
      (base.get actor).toNat + 1 := by
    have hroom' : (writeBase actor context held).Room actor := by
      rwa [Clock.Room, hbase]
    rw [writeClock_eq, Clock.toNat_get_increment hroom', hbase]
  constructor
  · rintro other (rfl | hother)
    · exact hown
    · have hne : other ≠ actor := by
        rintro rfl
        exact hactor hother
      rw [get_writeClock_of_ne hne, hcontext.more other hother]
  · intro other hother
    rw [Set.mem_insert_iff, not_or] at hother
    rw [get_writeClock_of_ne hother.1, hcontext.same other hother.2]

theorem ahead_coverOf {vs : List Version} (hne : vs ≠ [])
    (hall : ∀ v ∈ vs, ∃ s' ⊆ s, base.Ahead s' v.clock)
    (hsome : ∀ actor ∈ s, ∃ v ∈ vs, (base.get actor).toNat < (v.clock.get actor).toNat) :
    base.Ahead s (coverOf vs) := by
  have hupper : ∀ v ∈ vs, ∀ actor, (v.clock.get actor).toNat ≤ (base.get actor).toNat + 1 := by
    intro v hv actor
    obtain ⟨s', -, hv⟩ := hall v hv
    by_cases hactor : actor ∈ s'
    · rw [hv.more actor hactor]
    · rw [hv.same actor hactor]
      omega
  constructor
  · intro actor hactor
    obtain ⟨v, hv, hlt⟩ := hsome actor hactor
    have hlower := Clock.toNat_get_le (le_coverOf hv) actor
    rcases get_coverOf vs actor with hzero | ⟨w, hw, heq⟩
    · rw [hzero, UInt64.toNat_zero] at hlower
      omega
    · have hle := hupper w hw actor
      rw [heq] at hlower ⊢
      omega
  · intro actor hactor
    have heach : ∀ v ∈ vs, (v.clock.get actor).toNat = (base.get actor).toNat := by
      intro v hv
      obtain ⟨s', hsub, hv⟩ := hall v hv
      exact hv.same actor fun hmem => hactor (hsub hmem)
    obtain ⟨v, hv⟩ := List.exists_mem_of_ne_nil vs hne
    have hlower := Clock.toNat_get_le (le_coverOf hv) actor
    rw [heach v hv] at hlower
    rcases get_coverOf vs actor with hzero | ⟨w, hw, heq⟩
    · rw [hzero, UInt64.toNat_zero] at hlower ⊢
      omega
    · rw [heq, heach w hw]

end Cluster

/-! ## Exchanges -/

structure Party where
  writer : ClientId
  value : Bytes
  stamp : Stamp
  readQuorum : Quorum
  writeQuorum : Quorum
  returnBody : Bool

namespace Party

def name (p : Party) : String := p.writer.toHex

def request (p : Party) (l : Location) (context : Bytes) : PutRequest :=
  ⟨l, p.value, context, p.writer, p.writeQuorum, p.returnBody⟩

def version (p : Party) (l : Location) (clock : Clock) : Version :=
  .live l p.value clock p.stamp

def raw (p : Party) : RawVersion := ⟨p.value, p.stamp.time, p.stamp.tag⟩

end Party

/-- A cluster and the context that each of `n` writers was told. -/
structure Exchange (n : Nat) where
  cluster : Cluster
  contexts : Fin n → Bytes

def Exchange.turn {n : Nat} (ps : Fin n → Party) (l : Location) (x : Exchange n) :
    Turn n → Option (Exchange n)
  | .get i =>
    let served := x.cluster.get l (ps i).readQuorum
    match served.result with
    | .ok reply => some ⟨served.cluster, Function.update x.contexts i reply.context⟩
    | .error _ => none
  | .put i =>
    let served := x.cluster.put ((ps i).request l (x.contexts i)) (ps i).stamp
    match served.result with
    | .ok _ => some ⟨served.cluster, x.contexts⟩
    | .error _ => none

theorem Exchange.turn_get {n : Nat} {ps : Fin n → Party} {l : Location} {x : Exchange n}
    {i : Fin n} {reply : FetchReply}
    (h : (x.cluster.get l (ps i).readQuorum).result = .ok reply) :
    turn ps l x (.get i) = some ⟨(x.cluster.get l (ps i).readQuorum).cluster,
      Function.update x.contexts i reply.context⟩ := by
  simp only [turn, h]

theorem Exchange.turn_put {n : Nat} {ps : Fin n → Party} {l : Location} {x : Exchange n}
    {j : Fin n} {reply : PutReply}
    (h : (x.cluster.put ((ps j).request l (x.contexts j)) (ps j).stamp).result = .ok reply) :
    turn ps l x (.put j) = some
      ⟨(x.cluster.put ((ps j).request l (x.contexts j)) (ps j).stamp).cluster, x.contexts⟩ := by
  simp only [turn, h]

def Exchange.turns {n : Nat} (ps : Fin n → Party) (l : Location) (c : Cluster)
    (ts : List (Turn n)) : Option (Exchange n) :=
  ts.foldlM (turn ps l) ⟨c, fun _ => []⟩

theorem Exchange.turns_append_singleton {n : Nat} {ps : Fin n → Party} {l : Location}
    {c : Cluster} {ts : List (Turn n)} {x : Exchange n} (h : turns ps l c ts = some x)
    (t : Turn n) : turns ps l c (ts ++ [t]) = turn ps l x t := by
  rw [turns] at h ⊢
  simp only [List.foldlM_append, h, Option.bind_eq_bind, Option.bind_some, List.foldlM_cons,
    List.foldlM_nil, bind_pure]

namespace Cluster

open Turn

def names {n : Nat} (ps : Fin n → Party) (is : Set (Fin n)) : Set String :=
  (fun i => (ps i).name) '' is

section

variable {n : Nat} {ps : Fin n → Party} (hps : Function.Injective fun i => (ps i).name)
  {l : Location} {c x : Cluster} {ts : List (Turn n)}
include hps

theorem mem_names {is : Set (Fin n)} {i : Fin n} : (ps i).name ∈ names ps is ↔ i ∈ is :=
  hps.mem_set_image

theorem names_subset_names {is js : Set (Fin n)} : names ps is ⊆ names ps js ↔ is ⊆ js :=
  Set.image_subset_image_iff hps

omit hps

def Counts (ps : Fin n → Party) (base : Clock) (ts : List (Turn n)) (clocks : Fin n → Clock) :
    Prop :=
  ∀ j ∈ writers ts, base.Ahead (names ps (past ts j)) (clocks j)

def kept (ps : Fin n → Party) (l : Location) (ts : List (Turn n)) (clocks : Fin n → Clock) :
    List Version :=
  (survivors ts).map fun j => (ps j).version l (clocks j)

variable {base : Clock} {clocks : Fin n → Clock}

theorem Counts.le_iff (hps : Function.Injective fun i => (ps i).name)
    (h : Counts ps base ts clocks) (hts : InOrder ts) {j k : Fin n} (hj : j ∈ writers ts)
    (hk : k ∈ writers ts) : clocks j ≤ clocks k ↔ j ∈ past ts k := by
  rw [(h j hj).le_iff (h k hk), names_subset_names hps, hts.past_subset_iff]

theorem Counts.pairwise_kept (hps : Function.Injective fun i => (ps i).name)
    (h : Counts ps base ts clocks) (hts : InOrder ts) :
    (kept ps l ts clocks).Pairwise Apart := by
  have hunder : ∀ j ∈ survivors ts, ∀ k ∈ survivors ts, j ≠ k → ¬clocks j ≤ clocks k := by
    intro j hj k hk hne hle
    have hj' := mem_writers_of_mem_survivors hj
    have hk' := mem_writers_of_mem_survivors hk
    rcases (h.le_iff hps hts hj' hk').1 hle with heq | hsaw
    · exact hne heq
    · exact not_saw_of_mem_survivors hj hk' hsaw
  rw [kept, List.pairwise_map]
  refine hts.nodup_survivors.pairwise_of_forall_ne fun j hj k hk hne => ?_
  exact ⟨hunder j hj k hk hne, hunder k hk j hj hne.symm⟩

theorem Counts.get (h : Counts ps base ts clocks) {i : Fin n}
    (hts : InOrder (ts ++ [.get i])) : Counts ps base (ts ++ [.get i]) clocks := by
  intro j hj
  rw [writers_get] at hj
  rw [past_get (hts.ne_of_get hj)]
  exact h j hj

theorem Counts.put (h : Counts ps base ts clocks) {j : Fin n} {clock : Clock}
    (hts : InOrder (ts ++ [.put j])) (hclock : base.Ahead (names ps (past ts j)) clock) :
    Counts ps base (ts ++ [.put j]) (Function.update clocks j clock) := by
  intro k hk
  rw [writers_put, List.mem_append, List.mem_singleton] at hk
  rw [past_put]
  rcases hk with hk | rfl
  · have hne : k ≠ j := by
      rintro rfl
      exact hts.notMem_writers_of_put hk
    rw [Function.update_of_ne hne]
    exact h k hk
  · rwa [Function.update_self]

/-- A write takes the place of the writes that its writer saw and stands beside the others. -/
theorem Counts.settle_kept (hps : Function.Injective fun i => (ps i).name)
    (h : Counts ps base ts clocks) {j : Fin n} {clock : Clock}
    (hts : InOrder (ts ++ [.put j])) (hclock : base.Ahead (names ps (past ts j)) clock) :
    settle (kept ps l ts clocks) ((ps j).version l clock) =
      kept ps l (ts ++ [.put j]) (Function.update clocks j clock) := by
  have hnew : j ∉ writers ts := hts.notMem_writers_of_put
  -- The new clock is above those that its writer saw and below none.
  have hcompare : ∀ k ∈ writers ts,
      (clocks k ≤ clock ↔ Saw ts j k) ∧ ¬clock ≤ clocks k := by
    intro k hk
    have hne : k ≠ j := by
      rintro rfl
      exact hnew hk
    rw [(h k hk).le_iff hclock, hclock.le_iff (h k hk), names_subset_names hps,
      names_subset_names hps, hts.init.past_subset_iff, hts.init.past_subset_iff]
    refine ⟨or_iff_right hne, ?_⟩
    rintro (heq | hsaw)
    · exact hne heq.symm
    · exact hnew hsaw.mem_writers
  have hany : ¬(kept ps l ts clocks).any (Table.supersededBy ((ps j).version l clock)) = true := by
    rw [Version.any_supersededBy_iff]
    rintro ⟨v, hv, hlt⟩
    obtain ⟨k, hk, rfl⟩ := List.mem_map.1 hv
    exact (hcompare k (mem_writers_of_mem_survivors hk)).2 hlt.le
  have hfilter : ∀ k ∈ survivors ts,
      decide (clock.compare (clocks k) = .concurrent) = decide ¬Saw ts j k := by
    intro k hk
    obtain ⟨hsaw, hnot⟩ := hcompare k (mem_writers_of_mem_survivors hk)
    rw [decide_eq_decide, Clock.compare_eq_concurrent_iff, hsaw]
    exact and_iff_right hnot
  have hupdate : ∀ k ∈ survivors ts, Function.update clocks j clock k = clocks k := by
    intro k hk
    refine Function.update_of_ne ?_ ..
    rintro rfl
    exact hnew (mem_writers_of_mem_survivors hk)
  rw [settle, if_neg hany, kept, kept, hts.survivors_put, List.map_append, List.filter_map]
  congr 1
  · refine (congrArg _ (List.filter_congr hfilter)).trans ?_
    refine List.map_congr_left fun k hk => ?_
    rw [hupdate k (List.mem_filter.1 hk).1]
  · simp

/-- What the live replicas hold after some turns: nothing above what they held at the
start, until somebody writes; then the writes that survive. -/
inductive Holding (ps : Fin n → Party) (l : Location) (c : Cluster) (ts : List (Turn n))
    (x : Cluster) : Prop where
  | before (hnone : writers ts = []) (hbelow : ∀ v ∈ x.held l, v.clock ≤ coverOf (c.held l))
      (hreach : ∀ v ∈ c.held l, Reach (x.held l) v.clock)
  | after (clocks : Fin n → Clock) (hsome : writers ts ≠ [])
      (hcounts : Counts ps (coverOf (c.held l)) ts clocks)
      (hagree : ∀ ws ∈ x.answers l, ws = kept ps l ts clocks)

namespace Holding

theorem get (h : Holding ps l c ts x) {i : Fin n} (hts : InOrder (ts ++ [.get i])) :
    Holding ps l c (ts ++ [.get i]) x := by
  cases h with
  | before hnone hbelow hreach => exact .before (by rwa [writers_get]) hbelow hreach
  | after clocks hsome hcounts hagree =>
      refine .after clocks (by rwa [writers_get]) (hcounts.get hts) fun ws hws => ?_
      rw [kept, hts.survivors_get]
      exact hagree ws hws

theorem readOut (hps : Function.Injective fun i => (ps i).name) (h : Holding ps l c ts x)
    (hts : InOrder ts) (hlive : 0 < x.liveCount) : Holding ps l c ts (x.readOut l) := by
  cases h with
  | before hnone hbelow hreach =>
      refine .before hnone (fun v hv => hbelow v (held_readOut_subset x l hv)) fun v hv => ?_
      exact reach_held_readOut (hreach v hv)
  | after clocks hsome hcounts hagree =>
      refine .after clocks hsome hcounts ?_
      rwa [answers_readOut_of_agree hlive hagree (hcounts.pairwise_kept hps hts)]

/-- A context that is told now counts all that has been written. -/
theorem ahead_coverOf (hps : Function.Injective fun i => (ps i).name)
    (h : Holding ps l c ts x) (hts : InOrder ts) (hlive : 0 < x.liveCount) :
    (coverOf (c.held l)).Ahead (names ps {i | i ∈ writers ts})
      (coverOf (reconcile (x.held l))) := by
  cases h with
  | before hnone hbelow hreach =>
      have hempty : names ps {i | i ∈ writers ts} = ∅ := by simp [hnone, names]
      rw [hempty]
      refine Clock.ahead_empty (coverOf_le fun v hv => ?_) (coverOf_le fun v hv => ?_)
      · obtain ⟨w, hw, hle⟩ := reach_reconcile_iff.2 (hreach v hv)
        exact hle.trans (le_coverOf hw)
      · exact hbelow v (mem_of_mem_reconcile hv)
  | after clocks hsome hcounts hagree =>
      rw [reconcile_held_of_agree hlive hagree (hcounts.pairwise_kept hps hts)]
      -- Every write lies in the past of one that survives and is counted by it.
      obtain ⟨first, hfirst⟩ := List.exists_mem_of_ne_nil _ hsome
      obtain ⟨top, htop, -⟩ := hts.exists_survivor hfirst
      refine Cluster.ahead_coverOf ?_ (fun v hv => ?_) fun actor hactor => ?_
      · exact List.ne_nil_of_mem (List.mem_map.2 ⟨top, htop, rfl⟩)
      · obtain ⟨j, hj, rfl⟩ := List.mem_map.1 hv
        have hj' := mem_writers_of_mem_survivors hj
        refine ⟨_, (names_subset_names hps).2 ?_, hcounts j hj'⟩
        rintro k (rfl | hsaw)
        · exact hj'
        · exact hsaw.mem_writers
      · obtain ⟨k, hk, rfl⟩ := hactor
        obtain ⟨j, hj, hkj⟩ := hts.exists_survivor hk
        refine ⟨_, List.mem_map.2 ⟨j, hj, rfl⟩, ?_⟩
        have hcount := (hcounts j (mem_writers_of_mem_survivors hj)).more _ ⟨k, hkj, rfl⟩
        exact hcount.symm ▸ Nat.lt_succ_self _

theorem get_le (hps : Function.Injective fun i => (ps i).name) (h : Holding ps l c ts x)
    {j : Fin n} (hj : j ∉ writers ts) {v : Version} (hv : v ∈ x.held l) :
    v.clock.get (ps j).name ≤ (coverOf (c.held l)).get (ps j).name := by
  cases h with
  | before hnone hbelow hreach => exact hbelow v hv _
  | after clocks hsome hcounts hagree =>
      obtain ⟨ws, hws, hmem⟩ := List.mem_flatten.1 hv
      rw [hagree ws hws] at hmem
      obtain ⟨k, hk, rfl⟩ := List.mem_map.1 hmem
      have hk' := mem_writers_of_mem_survivors hk
      have hnot : (ps j).name ∉ names ps (past ts k) := by
        rw [mem_names hps]
        rintro (rfl | hsaw)
        · exact hj hk'
        · exact hj hsaw.mem_writers
      exact UInt64.le_iff_toNat_le.2 (le_of_eq ((hcounts k hk').same _ hnot))

theorem put (hps : Function.Injective fun i => (ps i).name) (h : Holding ps l c ts x)
    {j : Fin n} {clock : Clock} (hts : InOrder (ts ++ [.put j]))
    (hclock : (coverOf (c.held l)).Ahead (names ps (past ts j)) clock) :
    Holding ps l c (ts ++ [.put j]) (x.write ((ps j).version l clock)) := by
  have hsome : writers (ts ++ [.put j]) ≠ [] := by simp [writers_put]
  have hanswers : (x.write ((ps j).version l clock)).answers l =
      (x.answers l).map fun vs => settle vs ((ps j).version l clock) :=
    answers_write x rfl
  cases h with
  | before hnone hbelow hreach =>
      have hcounts : Counts ps (coverOf (c.held l)) ts fun _ => clock := by
        intro k hk
        rw [hnone] at hk
        exact absurd hk List.not_mem_nil
      refine .after _ hsome (hcounts.put hts hclock) fun ws hws => ?_
      rw [hanswers] at hws
      obtain ⟨vs, hvs, rfl⟩ := List.mem_map.1 hws
      -- The first write supersedes all that was held at the start.
      have hlt : coverOf (c.held l) < clock := by
        refine lt_iff_le_not_ge.2 ⟨hclock.base_le, fun hle => ?_⟩
        have hcount := Clock.toNat_get_le hle (ps j).name
        rw [hclock.more _ ((mem_names hps).2 (Set.mem_insert j _))] at hcount
        omega
      have hsettle : settle vs ((ps j).version l clock) = [(ps j).version l clock] := by
        refine Version.settle_of_forall_lt fun v hv => ?_
        exact lt_of_le_of_lt (hbelow v (List.mem_flatten.2 ⟨vs, hvs, hv⟩)) hlt
      rw [hsettle, kept, hts.survivors_put, survivors, hnone]
      simp
  | after clocks _ hcounts hagree =>
      refine .after _ hsome (hcounts.put hts hclock) fun ws hws => ?_
      rw [hanswers] at hws
      obtain ⟨vs, hvs, rfl⟩ := List.mem_map.1 hws
      rw [hagree vs hvs]
      exact hcounts.settle_kept hps hts hclock

end Holding

end

/-! ## Whole exchanges -/

/-- What is so after some turns: the same replicas are up, they hold what they should, and
who has read knows what was written before. -/
structure Tracks {n : Nat} (ps : Fin n → Party) (l : Location) (c : Cluster)
    (ts : List (Turn n)) (x : Exchange n) : Prop where
  shape : c.SameShape x.cluster
  holding : Holding ps l c ts x.cluster
  informed : ∀ j, .get j ∈ ts → ∃ context, Clock.ofBytes (x.contexts j) = .ok context ∧
    (coverOf (c.held l)).Ahead (names ps {i | Saw ts j i}) context

section

variable {n : Nat} {ps : Fin n → Party} (hps : Function.Injective fun i => (ps i).name)
  {l : Location} (hl : checkLocation l = .ok ()) {c : Cluster}
  (hreads : ∀ i, c.MeetsRead (ps i).readQuorum) (hwrites : ∀ i, c.MeetsWrite (ps i).writeQuorum)
  (hroom : ∀ i, (coverOf (c.held l)).Room (ps i).name) {ts : List (Turn n)}
include hps hl

theorem Tracks.get {x : Exchange n} (h : Tracks ps l c ts x) {i : Fin n}
    (hread : c.MeetsRead (ps i).readQuorum) (hts : InOrder (ts ++ [.get i])) :
    ∃ x', Exchange.turn ps l x (.get i) = some x' ∧ Tracks ps l c (ts ++ [.get i]) x' := by
  have hlive := (h.shape.meetsRead hread).liveCount_pos
  obtain ⟨reply, hreply⟩ := exists_get_ok hl (h.shape.meetsRead hread)
  obtain ⟨-, -, hcontext, hcluster⟩ := get_ok hreply
  refine ⟨_, Exchange.turn_get hreply, ?_, ?_, fun j hj => ?_⟩
  · rw [hcluster]
    exact h.shape.trans (sameShape_readOut _ l)
  · rw [hcluster]
    exact (h.holding.readOut hps hts.init hlive).get hts
  · by_cases hji : j = i
    · subst hji
      refine ⟨coverOf (reconcile (x.cluster.held l)), ?_, ?_⟩
      · simp only [Function.update_self, hcontext]
        exact ofBytes_context _
      · have hsaw : {k | Saw (ts ++ [.get j]) j k} = {k | k ∈ writers ts} := by
          ext k
          simp only [Set.mem_ofPred_eq, saw_get, and_true]
          exact or_iff_right_of_imp Saw.mem_writers
        rw [hsaw]
        exact h.holding.ahead_coverOf hps hts.init hlive
    · have hmem : .get j ∈ ts := by simpa [hji] using hj
      simp only [Function.update_of_ne hji, saw_get, hji, and_false, or_false]
      exact h.informed j hmem

theorem Tracks.put {x : Exchange n} (h : Tracks ps l c ts x) {j : Fin n}
    (hwrite : c.MeetsWrite (ps j).writeQuorum) (hroom : (coverOf (c.held l)).Room (ps j).name)
    (hts : InOrder (ts ++ [.put j])) :
    ∃ x', Exchange.turn ps l x (.put j) = some x' ∧ Tracks ps l c (ts ++ [.put j]) x' := by
  have hnew : j ∉ writers ts := hts.notMem_writers_of_put
  obtain ⟨context, hcontext, hahead⟩ := h.informed j hts.get_mem_of_put
  obtain ⟨reply, hreply⟩ := @exists_put_ok x.cluster ((ps j).request l (x.contexts j)) context
    (ps j).stamp hl (h.shape.meetsWrite hwrite) hcontext
  obtain ⟨context', hcontext', hlive, hpos, -, hcluster⟩ := put_ok hreply
  have heq : context' = context := Except.ok.inj (hcontext'.symm.trans hcontext)
  subst heq
  have hclock : (coverOf (c.held l)).Ahead (names ps (past ts j))
      (writeClock (ps j).name context' (x.cluster.held l)) := by
    have hactor : (ps j).name ∉ names ps {i | Saw ts j i} := fun hmem =>
      hnew ((mem_names hps).1 hmem).mem_writers
    have hahead' := ahead_writeClock hahead hactor hroom fun v hv =>
      h.holding.get_le hps hnew hv
    rwa [past, names, Set.image_insert_eq]
  have hholding := h.holding.put hps hts hclock
  have hshape := h.shape.trans (sameShape_write x.cluster
    ((ps j).version l (writeClock (ps j).name context' (x.cluster.held l))))
  have hwritten : x.cluster.putVersion ((ps j).request l (x.contexts j)) context' (ps j).stamp =
      (ps j).version l (writeClock (ps j).name context' (x.cluster.held l)) := rfl
  rw [hwritten] at hcluster
  refine ⟨_, Exchange.turn_put hreply, ?_, ?_, fun i hi => ?_⟩
  · rw [hcluster]
    split_ifs
    · exact hshape.trans (sameShape_readOut _ l)
    · exact hshape
  · rw [hcluster]
    split_ifs
    · refine hholding.readOut hps hts ?_
      rw [hshape.liveCount_eq, ← h.shape.liveCount_eq]
      omega
    · exact hholding
  · have hmem : .get i ∈ ts := by simpa using hi
    simp only [saw_put]
    exact h.informed i hmem

include hreads hwrites hroom

/-- However the turns are ordered, every request is met and the exchange stays on its track. -/
theorem exists_tracks_turns (hts : InOrder ts) :
    ∃ x, Exchange.turns ps l c ts = some x ∧ Tracks ps l c ts x := by
  induction ts using List.reverseRecOn with
  | nil =>
      refine ⟨_, rfl, SameShape.refl c, .before rfl (fun v hv => le_coverOf hv) fun v hv => ?_, ?_⟩
      · exact ⟨v, hv, le_rfl⟩
      · exact fun j hj => absurd hj List.not_mem_nil
  | append_singleton ts t ih =>
      obtain ⟨x, hx, htracks⟩ := ih hts.init
      rw [Exchange.turns_append_singleton hx]
      cases t with
      | get i => exact htracks.get hps hl (hreads i) hts
      | put j => exact htracks.put hps hl (hwrites j) (hroom j) hts

end

/-- After all have read and written, a read finds the writes that nobody saw who wrote
afterwards, in the order in which they were made; all of them if nobody saw any. -/
theorem get_after_turns {n : Nat} (hn : 0 < n) {ps : Fin n → Party}
    (hwriters : Function.Injective fun i => (ps i).writer) {c : Cluster} {l : Location}
    {q : Quorum} (hl : checkLocation l = .ok ()) (hq : c.MeetsRead q)
    (hreads : ∀ i, c.MeetsRead (ps i).readQuorum)
    (hwrites : ∀ i, c.MeetsWrite (ps i).writeQuorum)
    (hroom : ∀ i, (coverOf (c.held l)).Room (ps i).writer.toHex) {ts : List (Turn n)}
    (hts : InOrder ts) (hall : ∀ i, .put i ∈ ts) :
    (writers ts).Perm (List.finRange n) ∧
      ∃ x reply, Exchange.turns ps l c ts = some x ∧ (x.cluster.get l q).result = .ok reply ∧
        reply.versions = ((writers ts).filter fun j => ∀ i, ¬Before ts (.put j) (.get i)).map
          (fun j => (ps j).raw) ∧
        ((∀ i j, ¬Before ts (.put j) (.get i)) →
          reply.versions = (writers ts).map fun j => (ps j).raw) := by
  have hps : Function.Injective fun i => (ps i).name := ClientId.toHex_injective.comp hwriters
  have hmem : ∀ i, i ∈ writers ts := fun i => mem_writers.2 (hall i)
  have hsurvivors : survivors ts =
      (writers ts).filter fun j => ∀ i, ¬Before ts (.put j) (.get i) := by
    refine List.filter_congr fun j _ => decide_eq_decide.2 ?_
    exact forall_congr' fun i => forall_prop_of_true (hmem i)
  obtain ⟨x, hx, htracks⟩ := exists_tracks_turns hps hl hreads hwrites hroom hts
  have hmeets := htracks.shape.meetsRead hq
  obtain ⟨reply, hreply⟩ := exists_get_ok hl hmeets
  obtain ⟨-, -, heq, -⟩ := get_ok hreply
  have hversions : reply.versions = (survivors ts).map fun j => (ps j).raw := by
    rcases htracks.holding with ⟨hnone, -, -⟩ | ⟨clocks, -, hcounts, hagree⟩
    · exact absurd (hmem ⟨0, hn⟩) (by simp [hnone])
    · have hreconcile := reconcile_held_of_agree hmeets.liveCount_pos hagree
        (hcounts.pairwise_kept hps hts)
      rw [heq, hreconcile]
      simp [replyOf, kept, Party.version, Version.live, Party.raw, List.filter_map,
        Function.comp_def]
  refine ⟨?_, x, reply, hx, hreply, hsurvivors ▸ hversions, fun hnone => ?_⟩
  · refine (List.perm_ext_iff_of_nodup hts.nodup_writers (List.nodup_finRange n)).2 fun i => ?_
    simp [hmem]
  · rw [hversions, hsurvivors, List.filter_eq_self.2 fun j _ => ?_]
    exact decide_eq_true fun i => hnone i j

def threeParties (i : Fin 3) : Party :=
  ⟨.ofNat i.val, [UInt8.ofNat i.val], ⟨"t", 0⟩, .majority, .majority, false⟩

/-- The last writer to read saw the first one's write but not the second one's. -/
theorem get_after_three_turns :
    ∃ x reply, Exchange.turns threeParties ⟨"b", "k"⟩ (empty {} default)
        [.get 0, .get 1, .put 0, .get 2, .put 2, .put 1] = some x ∧
      (x.cluster.get ⟨"b", "k"⟩ .majority).result = .ok reply ∧
        reply.versions.map (·.value) = [[2], [1]] := by
  have hwriters : Function.Injective fun i => (threeParties i).writer := by
    intro i j
    revert i j
    decide +kernel
  obtain ⟨-, x, reply, hx, hreply, hversions, -⟩ :=
    @get_after_turns 3 (by decide) threeParties hwriters (empty {} default) ⟨"b", "k"⟩ .majority
      rfl (by decide +kernel) (by decide +kernel) (by decide +kernel)
      (by unfold Clock.Room; decide +kernel)
      [.get 0, .get 1, .put 0, .get 2, .put 2, .put 1] ⟨by decide, by decide⟩ (by decide)
  refine ⟨x, reply, hx, hreply, ?_⟩
  rw [hversions]
  decide +kernel

end Cluster

end SiblingStore
