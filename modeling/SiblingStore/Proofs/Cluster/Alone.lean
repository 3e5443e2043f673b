import SiblingStore.Proofs.Cluster.Steps
import Mathlib.Data.List.Nodup

/-!
# A write without others

A write whose steps come one after another, with no other's between them, does what a
put does and replies the same.
-/

namespace SiblingStore

namespace Cluster

/-! ## The replicas that are up -/

theorem filterMap_live (c : Cluster) :
    c.live.filterMap (c.replicas[·]?) = c.replicas.filter (·.up) := by
  have hfst : (c.replicas.zipIdx.filter (·.1.up)).filterMap (fun p => c.replicas[p.2]?) =
      (c.replicas.zipIdx.filter (·.1.up)).map (·.1) := by
    rw [← List.filterMap_eq_map]
    refine List.filterMap_congr fun p hp => ?_
    exact List.mem_zipIdx_iff_getElem?.1 (List.mem_filter.1 hp).1
  have hfilter : (c.replicas.zipIdx.filter (·.1.up)).map (·.1) =
      (c.replicas.zipIdx.map (·.1)).filter (·.up) := by
    rw [List.filter_map]
    rfl
  rw [live, List.filterMap_map]
  refine hfst.trans (hfilter.trans ?_)
  rw [List.zipIdx_map_fst]

theorem nodup_live (c : Cluster) : c.live.Nodup := by
  refine List.Nodup.sublist (List.Sublist.map _ List.filter_sublist) ?_
  rw [List.zipIdx_map_snd]
  exact List.nodup_range'

theorem lt_size_of_mem_live {c : Cluster} {i : Nat} (h : i ∈ c.live) : i < c.size := by
  obtain ⟨r, hr, -⟩ := mem_live_iff.1 h
  exact (List.getElem?_eq_some_iff.1 hr).1

theorem SameShape.live_eq {c c' : Cluster} (h : c.SameShape c') : c'.live = c.live := by
  have hlive : ∀ c : Cluster, c.live =
      (((c.replicas.map (·.up)).zipIdx).filter (·.1)).map (·.2) := by
    intro c
    rw [List.zipIdx_map, List.filter_map, List.map_map]
    rfl
  rw [hlive, hlive, h.2]

theorem heldAt_eq {c : Cluster} {i : Nat} {r : Replica} (hr : c.replicas[i]? = some r)
    (l : Location) : c.heldAt l i = r.store.versions l := by
  simp only [heldAt, hr]

theorem flatMap_heldAt_live (c : Cluster) (l : Location) :
    c.live.flatMap (c.heldAt l) = c.held l := by
  have hheldAt : ∀ i ∈ c.live,
      c.heldAt l i = (c.replicas[i]?).toList.flatMap (·.store.versions l) := by
    intro i hi
    obtain ⟨r, hr, -⟩ := mem_live_iff.1 hi
    simp [heldAt_eq hr, hr]
  rw [held, answers, ← filterMap_live, ← List.flatMap_def, List.filterMap_eq_flatMap_toList,
    List.flatMap_assoc]
  exact List.flatMap_congr hheldAt

/-! ## Changes to some replicas -/

theorem ext_replicas {c c' : Cluster} (hsettings : c.settings = c'.settings)
    (hnode : c.node = c'.node) (h : ∀ i : Nat, c.replicas[i]? = c'.replicas[i]?) : c = c' := by
  cases c
  cases c'
  cases hsettings
  cases hnode
  cases List.ext_getElem? h
  rfl

def changeAt (c : Cluster) (is : List Nat) (f : Replica → Replica) : Cluster :=
  { c with replicas := c.replicas.mapIdx fun i r => if i ∈ is then f r else r }

theorem getElem?_changeAt (c : Cluster) (is : List Nat) (f : Replica → Replica) (i : Nat) :
    (c.changeAt is f).replicas[i]? =
      (c.replicas[i]?).map fun r => if i ∈ is then f r else r := by
  rw [changeAt, List.getElem?_mapIdx]

@[simp] theorem changeAt_nil (c : Cluster) (f : Replica → Replica) : c.changeAt [] f = c :=
  ext_replicas rfl rfl fun i => by simp [getElem?_changeAt]

@[simp] theorem changeAt_id (c : Cluster) (is : List Nat) : c.changeAt is id = c :=
  ext_replicas rfl rfl fun i => by simp [getElem?_changeAt]

theorem set_changeAt {c : Cluster} {is : List Nat} {i : Nat} {r : Replica}
    (hr : c.replicas[i]? = some r) (f : Replica → Replica) :
    ({ c.changeAt is f with replicas := (c.changeAt is f).replicas.set i (f r) } : Cluster) =
      c.changeAt (is ++ [i]) f := by
  refine ext_replicas rfl rfl fun k => ?_
  rw [getElem?_changeAt]
  by_cases hk : k = i
  · subst hk
    have hlt : k < (c.changeAt is f).replicas.length := by
      rw [changeAt, List.length_mapIdx]
      exact (List.getElem?_eq_some_iff.1 hr).1
    simp [List.getElem?_set_self hlt, hr]
  · rw [List.getElem?_set_ne (Ne.symm hk), getElem?_changeAt]
    simp [hk]

theorem changeAt_live_write (c : Cluster) (v : Version) :
    c.changeAt c.live (fun r => { r with store := (r.store.put v).2 }) = c.write v := by
  refine ext_replicas rfl rfl fun i => ?_
  rw [getElem?_changeAt, write, List.getElem?_map]
  cases hr : c.replicas[i]? with
  | none => rfl
  | some r =>
      have hup : i ∈ c.live ↔ r.up = true := by simp [mem_live_iff, hr]
      simp only [Option.map_some, Replica.write, hup]

theorem changeAt_repair (c : Cluster) (l : Location) (vs : List Version) :
    c.changeAt (c.live.filter fun i => isStale (c.heldAt l i) vs)
      (fun r => { r with store := r.store.putAll vs }) = c.repair l vs := by
  refine ext_replicas rfl rfl fun i => ?_
  rw [getElem?_changeAt, repair, List.getElem?_map]
  cases hr : c.replicas[i]? with
  | none => rfl
  | some r =>
      have hup : i ∈ c.live ↔ r.up = true := by simp [mem_live_iff, hr]
      simp only [Option.map_some, Replica.repair, Replica.needsRepair, List.mem_filter, hup,
        heldAt_eq hr, Bool.and_eq_true]

end Cluster

/-! ## The steps of one write -/

namespace Traffic

def alone (c : Cluster) (j : Job) : Traffic 1 := ⟨c, fun _ => j⟩

theorem step_alone {c : Cluster} {j j' : Job} {i : Nat} {r r' : Replica} {a : Act}
    (hr : c.replicas[i]? = some r)
    (hact : j.act c.settings.readRepair i r a = some (j', r')) :
    (alone c j).step ⟨0, a, i⟩ = some (alone { c with replicas := c.replicas.set i r' } j') := by
  have hjobs : (fun p : Fin 1 => if p = 0 then j' else j) = fun _ => j' := by
    funext p
    exact if_pos (Subsingleton.elim p 0)
  simp only [step, alone, hr, hact, hjobs]

def phase (a : Act) (is : List Nat) : List (Move 1) := is.map fun i => ⟨0, a, i⟩

/-- What one kind of step does to a replica and to the write, it does in turn to all. -/
theorem run_phase {c : Cluster} {a : Act} {f : Replica → Replica} {J : List Nat → List Nat → Job}
    {all : List Nat} (hnodup : all.Nodup) (hlt : ∀ i ∈ all, i < c.size)
    (hact : ∀ done i rest r, done ++ i :: rest = all → c.replicas[i]? = some r →
      (J done (i :: rest)).act c.settings.readRepair i r a = some (J (done ++ [i]) rest, f r)) :
    (alone c (J [] all)).run (phase a all) = some (alone (c.changeAt all f) (J all [])) := by
  have hrest : ∀ rest done, done ++ rest = all →
      (alone (c.changeAt done f) (J done rest)).run (phase a rest) =
        some (alone (c.changeAt all f) (J all [])) := by
    intro rest
    induction rest with
    | nil =>
        intro done hall
        rw [List.append_nil] at hall
        rw [hall]
        rfl
    | cons i rest ih =>
        intro done hall
        obtain ⟨r, hr⟩ : ∃ r, c.replicas[i]? = some r :=
          ⟨_, List.getElem?_eq_getElem (hlt i (by simp [← hall]))⟩
        -- No replica has two turns, so this one is still as it was.
        have hi : i ∉ done := by
          rw [← hall] at hnodup
          exact fun hi => List.disjoint_of_nodup_append hnodup hi (by simp)
        have hr' : (c.changeAt done f).replicas[i]? = some r := by
          simp [Cluster.getElem?_changeAt, hr, hi]
        have hstep := step_alone hr' (hact done i rest r hall hr)
        rw [Cluster.set_changeAt hr] at hstep
        exact (run_cons hstep _).trans (ih (done ++ [i]) (by simpa using hall))
  have hall := hrest all [] rfl
  rwa [Cluster.changeAt_nil] at hall

section

variable {c : Cluster} {j : Job}

theorem run_reads (hunread : j.unread = c.live) (hgathered : j.gathered = []) :
    (alone c j).run (phase .read c.live) =
      some (alone c { j with unread := [], gathered := c.held j.location }) := by
  have hphase := @run_phase c .read id
    (fun done rest => { j with unread := rest, gathered := done.flatMap (c.heldAt j.location) })
    c.live c.nodup_live (fun i hi => Cluster.lt_size_of_mem_live hi) fun done i rest r _ hr => by
      simp [Job.act, Job.location, Cluster.heldAt_eq hr]
  have hstart : { j with unread := c.live, gathered := [].flatMap (c.heldAt j.location) } = j := by
    cases j
    cases hunread
    cases hgathered
    rfl
  rwa [hstart, Cluster.changeAt_id, Cluster.flatMap_heldAt_live] at hphase

theorem run_writes (hunread : j.unread = []) (hunwritten : j.unwritten = c.live)
    (hliving : j.living = 0) :
    (alone c j).run (phase .write c.live) =
      some (alone (c.write j.version)
        { j with unwritten := [], living := c.livingAfter j.version }) := by
  have hphase := @run_phase c .write (fun r => { r with store := (r.store.put j.version).2 })
    (fun done rest => { j with
      unwritten := rest
      living := ((done.filterMap (c.replicas[·]?)).map
        (Cluster.Replica.livingAfter j.version)).foldl max 0 })
    c.live c.nodup_live (fun i hi => Cluster.lt_size_of_mem_live hi) fun done i rest r _ hr => by
      simp [Job.act, Job.version, Job.location, hunread, hr]
  have hstart : { j with
      unwritten := c.live
      living := ((([] : List Nat).filterMap (c.replicas[·]?)).map
        (Cluster.Replica.livingAfter j.version)).foldl max 0 } = j := by
    cases j
    cases hunwritten
    cases hliving
    rfl
  rwa [hstart, Cluster.changeAt_live_write, Cluster.filterMap_live] at hphase

theorem run_asks (hunread : j.unread = []) (hunwritten : j.unwritten = [])
    (hunasked : j.unasked = c.live) (hanswers : j.answers = []) :
    (alone c j).run (phase .ask c.live) =
      some (alone c { j with
        unasked := [], answers := c.live.map fun i => (i, c.heldAt j.location i) }) := by
  have hphase := @run_phase c .ask id
    (fun done rest => { j with
      unasked := rest, answers := done.map fun i => (i, c.heldAt j.location i) })
    c.live c.nodup_live (fun i hi => Cluster.lt_size_of_mem_live hi) fun done i rest r _ hr => by
      simp [Job.act, Job.location, hunread, hunwritten, Cluster.heldAt_eq hr]
  have hstart : { j with
      unasked := c.live, answers := [].map fun i => (i, c.heldAt j.location i) } = j := by
    cases j
    cases hunasked
    cases hanswers
    rfl
  rwa [Cluster.changeAt_id, hstart] at hphase

theorem run_repairs (hunread : j.unread = []) (hunwritten : j.unwritten = [])
    (hunasked : j.unasked = []) (hrepaired : j.repaired = 0)
    (hstale : j.stale c.settings.readRepair ⊆ c.live)
    (hnodup : (j.stale c.settings.readRepair).Nodup) :
    (alone c j).run (phase .repair (j.stale c.settings.readRepair)) =
      some (alone (c.changeAt (j.stale c.settings.readRepair)
          fun r => { r with store := r.store.putAll j.reconciled })
        { j with repaired := (j.stale c.settings.readRepair).length }) := by
  have hphase := @run_phase c .repair (fun r => { r with store := r.store.putAll j.reconciled })
    (fun done _ => { j with repaired := done.length })
    (j.stale c.settings.readRepair) hnodup (fun i hi => Cluster.lt_size_of_mem_live (hstale hi))
    fun done i rest r hall _ => by
      have hdue : (({ j with repaired := done.length } : Job).stale
          c.settings.readRepair)[done.length]? = some i := by
        change (j.stale c.settings.readRepair)[done.length]? = some i
        rw [← hall]
        simp
      rw [List.length_append]
      exact if_pos ⟨hunread, hunwritten, hunasked, hdue⟩
  have hstart : { j with repaired := ([] : List Nat).length } = j := by
    cases j
    cases hrepaired
    rfl
  rwa [hstart] at hphase

theorem reconciled_of_answers
    (h : j.answers = c.live.map fun i => (i, c.heldAt j.location i)) :
    j.reconciled = reconcile (c.held j.location) := by
  rw [Job.reconciled, h, List.flatMap_map, Cluster.flatMap_heldAt_live]

theorem stale_of_answers (h : j.answers = c.live.map fun i => (i, c.heldAt j.location i))
    (readRepair : Bool) :
    j.stale readRepair = if readRepair && !j.reconciled.isEmpty then
      c.live.filter fun i => isStale (c.heldAt j.location i) j.reconciled else [] := by
  unfold Job.stale
  split_ifs
  · rw [h, List.filter_map, List.map_map]
    exact List.map_id _
  · rfl

theorem changeAt_stale (h : j.answers = c.live.map fun i => (i, c.heldAt j.location i)) :
    c.changeAt (j.stale c.settings.readRepair)
      (fun r => { r with store := r.store.putAll j.reconciled }) = (c.read j.location).2.1 := by
  rw [stale_of_answers h, reconciled_of_answers h, Cluster.read]
  split_ifs
  · exact Cluster.changeAt_repair c j.location _
  · exact Cluster.changeAt_nil ..

theorem run_write {r : PutRequest} {stamp : Stamp} {context : Clock} {unasked : List Nat} :
    (alone c { request := r, stamp, context, unread := c.live, unwritten := c.live
               unasked }).run (phase .read c.live ++ phase .write c.live) =
      some (alone (c.write (c.putVersion r context stamp))
        { request := r, stamp, context, unread := [], unwritten := [], unasked
          gathered := c.held r.location
          living := c.livingAfter (c.putVersion r context stamp) }) := by
  rw [run_append (run_reads rfl rfl)]
  exact run_writes rfl rfl rfl

/-- A write that has written can ask all replicas again and repair them as a read does. -/
theorem run_body (hunread : j.unread = []) (hunwritten : j.unwritten = [])
    (hunasked : j.unasked = c.live) (hanswers : j.answers = []) (hrepaired : j.repaired = 0) :
    ∃ ms j', (alone c j).run ms = some (alone (c.read j.location).2.1 j') ∧
      j'.isDone c.settings.readRepair = true ∧ j'.request = j.request ∧
      j'.living = j.living ∧ j'.reconciled = reconcile (c.held j.location) := by
  obtain ⟨j', hj'⟩ : ∃ j' : Job, j' = { j with
      unasked := [], answers := c.live.map fun i => (i, c.heldAt j.location i) } := ⟨_, rfl⟩
  have hlocation : j'.location = j.location := by rw [hj']; rfl
  have hasked : j'.answers = c.live.map fun i => (i, c.heldAt j'.location i) := by
    rw [hlocation, hj']
  have hstale : (j'.stale c.settings.readRepair).Sublist c.live := by
    rw [stale_of_answers hasked]
    split_ifs
    · exact List.filter_sublist
    · exact List.nil_sublist _
  have hasks := run_asks hunread hunwritten hunasked hanswers
  have hrepairs := @run_repairs c j' (by rw [hj', hunread]) (by rw [hj', hunwritten])
    (by rw [hj']) (by rw [hj', hrepaired]) hstale.subset (c.nodup_live.sublist hstale)
  rw [changeAt_stale hasked, hlocation] at hrepairs
  rw [← hj'] at hasks
  refine ⟨_, _, (run_append hasks _).trans hrepairs, ?_, by rw [hj'], by rw [hj'], ?_⟩
  · have hsame : ({ j' with repaired := (j'.stale c.settings.readRepair).length } : Job).stale
        c.settings.readRepair = j'.stale c.settings.readRepair := rfl
    rw [Job.isDone, hsame, hj']
    simp [hunread, hunwritten]
  · rw [← hlocation]
    exact reconciled_of_answers hasked

/-- A write that is not admitted is a put that is refused. -/
theorem put_of_startPut_error {r : PutRequest} {stamp : Stamp} {e : EngineError}
    (h : c.startPut r stamp = .error e) :
    (c.put r stamp).result = .error e ∧ (c.put r stamp).cluster = c := by
  have hresult : (c.put r stamp).result = .error e := by
    cases hlocation : Cluster.checkLocation r.location with
    | error e' =>
        simp only [Cluster.startPut, hlocation] at h
        cases h
        simp only [Cluster.put, hlocation, Cluster.refuse]
    | ok =>
        cases hquorum : c.checkQuorum r.quorum c.settings.writeQuorum with
        | error e' =>
            simp only [Cluster.startPut, hlocation, hquorum] at h
            cases h
            simp only [Cluster.put, hlocation, hquorum, Cluster.refuse]
        | ok n =>
            cases hcontext : Clock.ofBytes r.context with
            | error fault =>
                simp only [Cluster.startPut, hlocation, hquorum, hcontext] at h
                cases h
                simp only [Cluster.put, hlocation, hquorum, hcontext, Cluster.refuse]
            | ok context =>
                simp only [Cluster.startPut, hlocation, hquorum, hcontext] at h
                exact absurd h (by simp)
  exact ⟨hresult, Cluster.put_error hresult⟩

/-- The steps of an admitted write, taken in order, are a put. -/
theorem run_alone {r : PutRequest} {stamp : Stamp} (hstart : c.startPut r stamp = .ok j) :
    ∃ ms x, (alone c j).run ms = some x ∧ (x.jobs 0).isDone c.settings.readRepair = true ∧
      x.cluster = (c.put r stamp).cluster ∧ (c.put r stamp).result = .ok (x.jobs 0).reply := by
  obtain ⟨n, context, hlocation, hquorum, hcontext, rfl⟩ := Cluster.startPut_ok hstart
  cases hbody : r.returnBody with
  | false =>
      refine ⟨_, _, run_write, ?_, ?_, ?_⟩
      · simp [alone, Job.isDone, Job.stale, Job.reconciled, reconcile]
      · simp only [Cluster.put, hlocation, hquorum, hcontext, hbody]
        rfl
      · simp only [Cluster.put, hlocation, hquorum, hcontext, hbody, Job.reply, alone]
        rfl
  | true =>
      have hlive := (Cluster.sameShape_write c (c.putVersion r context stamp)).live_eq
      obtain ⟨ms, j', hrun, hdone, hrequest, hliving, hreconciled⟩ :=
        @run_body (c.write (c.putVersion r context stamp))
          { request := r, stamp, context, unread := [], unwritten := [], unasked := c.live
            gathered := c.held r.location
            living := c.livingAfter (c.putVersion r context stamp) } rfl rfl hlive.symm rfl rfl
      refine ⟨_, _, (run_append run_write ms).trans hrun, hdone, ?_, ?_⟩
      · simp only [Cluster.put, hlocation, hquorum, hcontext, hbody]
        rfl
      · have hreply : j'.reply = ⟨decide (1 < c.livingAfter (c.putVersion r context stamp)),
            some ((c.write (c.putVersion r context stamp)).read r.location).1⟩ := by
          rw [Job.reply, hreconciled, hrequest, hliving, hbody, (Cluster.read_eq _ _).1]
          rfl
        simp only [Cluster.put, hlocation, hquorum, hcontext, hbody]
        exact congrArg Except.ok hreply.symm

end

end Traffic

end SiblingStore
