import SiblingStore.Cluster.Overlap
import SiblingStore.Proofs.Cluster.Answers
import Mathlib.Data.List.Induction
import Mathlib.Tactic.Common

/-!
# The steps of writes

A step changes its write and what its replica holds, and nothing else. Whatever the
steps of other writes between them, a write reads every replica before it writes to
any, its version stands from then on, and what a replica reached it goes on to reach.
-/

namespace SiblingStore

open Version (Reach settle)

theorem Cluster.mem_live_iff {c : Cluster} {i : Nat} :
    i ∈ c.live ↔ ∃ r, c.replicas[i]? = some r ∧ r.up = true := by
  simp only [live, List.mem_map, List.mem_filter, Prod.exists, List.mem_zipIdx_iff_getElem?]
  constructor
  · rintro ⟨r, k, ⟨hr, hup⟩, rfl⟩
    exact ⟨r, hr, hup⟩
  · rintro ⟨r, hr, hup⟩
    exact ⟨r, i, ⟨hr, hup⟩, rfl⟩

def Cluster.heldAt (c : Cluster) (l : Location) (i : Nat) : List Version :=
  match c.replicas[i]? with
  | some r => r.store.versions l
  | none => []

/-- What a step does to its write and to what its replica holds of the location. -/
inductive Job.Effect (readRepair : Bool) (i : Nat) (j : Job) (vs : List Version) :
    Act → Job → List Version → Prop where
  | read (hdue : i ∈ j.unread) :
      Effect readRepair i j vs .read
        { j with unread := j.unread.erase i, gathered := j.gathered ++ vs } vs
  | write (hread : j.unread = []) (hdue : i ∈ j.unwritten) (living : Nat) :
      Effect readRepair i j vs .write
        { j with unwritten := j.unwritten.erase i, living } (settle vs j.version)
  | ask (hread : j.unread = []) (hwritten : j.unwritten = []) (hdue : i ∈ j.unasked) :
      Effect readRepair i j vs .ask
        { j with unasked := j.unasked.erase i, answers := j.answers ++ [(i, vs)] } vs
  | repair (hread : j.unread = []) (hwritten : j.unwritten = []) (hdue : i ∈ j.stale readRepair)
      (ws : List Version) (hws : ws ⊆ j.reconciled) :
      Effect readRepair i j vs .repair { j with repaired := j.repaired + 1 }
        (ws.foldl settle vs)

theorem Job.effect_of_act {readRepair : Bool} {i : Nat} {j j' : Job} {r r' : Replica} {a : Act}
    (h : j.act readRepair i r a = some (j', r')) :
    Effect readRepair i j (r.store.versions j.location) a j' (r'.store.versions j.location) := by
  cases a with
  | read =>
      simp only [act] at h
      split_ifs at h with hdue
      cases h
      exact .read hdue
  | write =>
      simp only [act] at h
      split_ifs at h with hdue
      cases h
      have hversions : (r.store.put j.version).2.versions j.location =
          settle (r.store.versions j.location) j.version :=
        Table.versions_put_self r.store.table j.version
      rw [hversions]
      exact .write hdue.1 hdue.2 _
  | ask =>
      simp only [act] at h
      split_ifs at h with hdue
      cases h
      exact .ask hdue.1 hdue.2.1 hdue.2.2
  | repair =>
      simp only [act] at h
      split_ifs at h with hdue
      cases h
      obtain ⟨hread, hwritten, -, hstale⟩ := hdue
      have hversions : (r.store.putAll j.reconciled).versions j.location =
          (j.reconciled.filter (·.location = j.location)).foldl settle
            (r.store.versions j.location) := by
        rw [Store.putAll_eq]
        exact Table.versions_putAll r.store.table j.reconciled j.location
      rw [hversions]
      exact .repair hread hwritten (List.mem_of_getElem? hstale) _ (List.filter_subset_self _)

open Cluster (reach_foldl_settle mem_foldl_settle)

theorem mem_erase_or {i k : Nat} {is : List Nat} (h : k ∈ is) : k ∈ is.erase i ∨ k = i := by
  by_cases hk : k = i
  · exact .inr hk
  · exact .inl ((List.mem_erase_of_ne hk).2 h)

namespace Job.Effect

variable {readRepair : Bool} {i : Nat} {j j' : Job} {vs vs' : List Version} {a : Act}

theorem reach (h : Effect readRepair i j vs a j' vs') {k : Clock} (hk : Reach vs k) :
    Reach vs' k := by
  cases h with
  | read | ask => exact hk
  | write => exact hk.settle j.version
  | repair _ _ _ ws _ => exact reach_foldl_settle hk ws

theorem gathered_subset (h : Effect readRepair i j vs a j' vs') : j.gathered ⊆ j'.gathered := by
  cases h with
  | read => exact List.subset_append_left ..
  | write | ask | repair => exact List.Subset.refl _

theorem gathered_of_ne (h : Effect readRepair i j vs a j' vs') (ha : a ≠ .read) :
    j'.gathered = j.gathered := by
  cases h with
  | read => exact absurd rfl ha
  | write | ask | repair => rfl

theorem gathered_read (h : Effect readRepair i j vs .read j' vs') :
    i ∈ j.unread ∧ j'.gathered = j.gathered ++ vs := by
  cases h with
  | read hdue => exact ⟨hdue, rfl⟩

theorem settle_write (h : Effect readRepair i j vs .write j' vs') :
    j.unread = [] ∧ vs' = settle vs j.version := by
  cases h with
  | write hread => exact ⟨hread, rfl⟩

/-- The version of a write stands once it has read everything. -/
theorem version_eq (h : Effect readRepair i j vs a j' vs') (hread : j.unread = []) :
    j'.unread = [] ∧ j'.version = j.version := by
  cases h with
  | read hdue =>
      rw [hread] at hdue
      exact absurd hdue List.not_mem_nil
  | write | ask | repair => exact ⟨hread, rfl⟩

theorem stale_repair (h : Effect readRepair i j vs .repair j' vs') :
    j.unwritten = [] ∧ i ∈ j.stale readRepair := by
  cases h with
  | repair _ hwritten hdue => exact ⟨hwritten, hdue⟩

theorem base_eq (h : Effect readRepair i j vs a j' vs') :
    j'.request = j.request ∧ j'.stamp = j.stamp ∧ j'.context = j.context := by
  cases h <;> exact ⟨rfl, rfl, rfl⟩

theorem unread_subset (h : Effect readRepair i j vs a j' vs') : j'.unread ⊆ j.unread := by
  cases h with
  | read => exact fun k hk => List.mem_of_mem_erase hk
  | write | ask | repair => exact List.Subset.refl _

theorem mem_unread_or (h : Effect readRepair i j vs a j' vs') {k : Nat} (hk : k ∈ j.unread) :
    k ∈ j'.unread ∨ .read = a ∧ k = i := by
  cases h with
  | read => exact (mem_erase_or hk).imp_right fun hki => ⟨rfl, hki⟩
  | write | ask | repair => exact .inl hk

theorem mem_unwritten_or (h : Effect readRepair i j vs a j' vs') {k : Nat}
    (hk : k ∈ j.unwritten) : k ∈ j'.unwritten ∨ .write = a ∧ k = i := by
  cases h with
  | write => exact (mem_erase_or hk).imp_right fun hki => ⟨rfl, hki⟩
  | read | ask | repair => exact .inl hk

theorem unasked_subset (h : Effect readRepair i j vs a j' vs') : j'.unasked ⊆ j.unasked := by
  cases h with
  | ask => exact fun k hk => List.mem_of_mem_erase hk
  | read | write | repair => exact List.Subset.refl _

theorem eq_of_harmless (h : Effect readRepair i j vs a j' vs') (hwrite : a ≠ .write)
    (hrepair : a ≠ .repair) : vs' = vs := by
  cases h with
  | read | ask => rfl
  | write => exact absurd rfl hwrite
  | repair => exact absurd rfl hrepair

theorem mem_or (h : Effect readRepair i j vs a j' vs') {v : Version} (hv : v ∈ vs') :
    v ∈ vs ∨ j.unread = [] ∧ v = j.version ∨ ∃ b ∈ j.answers, v ∈ b.2 := by
  cases h with
  | read | ask => exact .inl hv
  | write hread =>
      rcases Version.mem_of_mem_settle hv with hv | hv
      · exact .inl hv
      · exact .inr (.inl ⟨hread, hv⟩)
  | repair _ _ _ ws hws =>
      rcases mem_foldl_settle hv with hv | hv
      · exact .inl hv
      · exact .inr (.inr (List.mem_flatMap.1 (mem_of_mem_reconcile (hws hv))))

theorem mem_answers_or (h : Effect readRepair i j vs a j' vs') {b : Nat × List Version}
    (hb : b ∈ j'.answers) : b ∈ j.answers ∨ b.1 ∈ j.unasked ∧ b.2 = vs := by
  cases h with
  | read | write | repair => exact .inl hb
  | ask _ _ hdue =>
      rcases List.mem_append.1 hb with hb | hb
      · exact .inl hb
      · rw [List.mem_singleton.1 hb]
        exact .inr ⟨hdue, rfl⟩

end Job.Effect

/-! ## What a write has done -/

structure Job.IsFresh (j : Job) (l : Location) : Prop where
  location : j.location = l
  gathered : j.gathered = []
  answers : j.answers = []
  asks : j.unasked ⊆ j.unwritten

theorem Cluster.startPut_ok {c : Cluster} {r : PutRequest} {stamp : Stamp} {j : Job}
    (h : c.startPut r stamp = .ok j) :
    ∃ n context, checkLocation r.location = .ok () ∧
      c.checkQuorum r.quorum c.settings.writeQuorum = .ok n ∧
      Clock.ofBytes r.context = .ok context ∧
      j = { request := r, stamp, context, unread := c.live, unwritten := c.live
            unasked := if r.returnBody then c.live else [] } := by
  unfold startPut at h
  split at h
  · exact absurd h (by simp)
  · rename_i hlocation
    split at h
    · exact absurd h (by simp)
    · rename_i n hquorum
      split at h
      · exact absurd h (by simp)
      · rename_i context hcontext
        cases h
        exact ⟨n, context, hlocation, hquorum, hcontext, rfl⟩

theorem Cluster.isFresh_of_startPut {c : Cluster} {r : PutRequest} {stamp : Stamp} {j : Job}
    (h : c.startPut r stamp = .ok j) :
    j.IsFresh r.location ∧ j.request = r ∧ j.unread = c.live := by
  obtain ⟨-, context, -, -, -, rfl⟩ := startPut_ok h
  refine ⟨⟨rfl, rfl, rfl, ?_⟩, rfl, rfl⟩
  dsimp only
  split_ifs
  · exact List.Subset.refl _
  · exact List.nil_subset _

/-- How far a write has come since its start, by what it has done with which replicas. -/
structure Job.Progress (start j : Job) (done : Act → Nat → Prop) : Prop where
  request : j.request = start.request
  stamp : j.stamp = start.stamp
  context : j.context = start.context
  unread : j.unread ⊆ start.unread
  read : ∀ i ∈ start.unread, i ∈ j.unread ∨ done .read i
  ofRead : ∀ i, done .read i → i ∈ start.unread
  wrote : ∀ i ∈ start.unwritten, i ∈ j.unwritten ∨ done .write i
  ofWrote : ∀ i, done .write i → j.unread = []
  unasked : j.unasked ⊆ start.unasked
  answered : ∀ b ∈ j.answers, b.1 ∈ start.unasked
  ofRepaired : ∀ i, done .repair i → done .write i

theorem Job.IsFresh.progress {j : Job} {l : Location} (h : j.IsFresh l) :
    Progress j j fun _ _ => False where
  request := rfl
  stamp := rfl
  context := rfl
  unread := List.Subset.refl _
  read _ hi := .inl hi
  ofRead _ := False.elim
  wrote _ hi := .inl hi
  ofWrote _ := False.elim
  unasked := List.Subset.refl _
  answered b hb := by
    rw [h.answers] at hb
    exact absurd hb List.not_mem_nil
  ofRepaired _ := False.elim

theorem Job.mem_answers_of_mem_stale {j : Job} {readRepair : Bool} {i : Nat}
    (h : i ∈ j.stale readRepair) : ∃ b ∈ j.answers, b.1 = i := by
  unfold stale at h
  split_ifs at h
  · obtain ⟨b, hb, rfl⟩ := List.mem_map.1 h
    exact ⟨b, (List.mem_filter.1 hb).1, rfl⟩
  · exact absurd h List.not_mem_nil

theorem Job.Progress.step {start j j' : Job} {done : Act → Nat → Prop} {readRepair : Bool}
    {i : Nat} {vs vs' : List Version} {a : Act} (h : Progress start j done)
    (hasks : start.unasked ⊆ start.unwritten) (heffect : Effect readRepair i j vs a j' vs') :
    Progress start j' fun b k => done b k ∨ b = a ∧ k = i := by
  obtain ⟨hrequest, hstamp, hcontext⟩ := heffect.base_eq
  refine ⟨hrequest.trans h.request, hstamp.trans h.stamp, hcontext.trans h.context,
    fun k hk => h.unread (heffect.unread_subset hk), fun k hk => ?_, ?_, fun k hk => ?_, ?_,
    fun k hk => h.unasked (heffect.unasked_subset hk), fun b hb => ?_, ?_⟩
  · rcases h.read k hk with hk | hk
    · exact (heffect.mem_unread_or hk).imp_right .inr
    · exact .inr (.inl hk)
  · rintro k (hk | ⟨rfl, rfl⟩)
    · exact h.ofRead k hk
    · exact h.unread heffect.gathered_read.1
  · rcases h.wrote k hk with hk | hk
    · exact (heffect.mem_unwritten_or hk).imp_right .inr
    · exact .inr (.inl hk)
  · rintro k (hk | ⟨rfl, -⟩)
    · exact (heffect.version_eq (h.ofWrote k hk)).1
    · exact (heffect.version_eq heffect.settle_write.1).1
  · rcases heffect.mem_answers_or hb with hb | ⟨hb, -⟩
    · exact h.answered b hb
    · exact h.unasked hb
  · rintro k (hk | ⟨rfl, rfl⟩)
    · exact .inl (h.ofRepaired k hk)
    · -- Whoever repairs a replica has asked it, and whoever asks has written to all.
      obtain ⟨hwritten, hstale⟩ := heffect.stale_repair
      obtain ⟨b, hb, rfl⟩ := mem_answers_of_mem_stale hstale
      rcases h.wrote _ (hasks (h.answered b hb)) with hleft | hdone
      · rw [hwritten] at hleft
        exact absurd hleft List.not_mem_nil
      · exact .inl hdone

/-! ## Steps and runs -/

namespace Traffic

variable {n : Nat} {x₀ x y : Traffic n} {m : Move n} {ms : List (Move n)} {l : Location}

/-- A step does what it does to its write and its replica, and nothing to others. -/
theorem step_effect (h : x.step m = some y) :
    Job.Effect x.cluster.settings.readRepair m.replica (x.jobs m.job)
        (x.cluster.heldAt (x.jobs m.job).location m.replica) m.act (y.jobs m.job)
        (y.cluster.heldAt (x.jobs m.job).location m.replica) ∧
      (∀ p ≠ m.job, y.jobs p = x.jobs p) ∧
      ∀ i ≠ m.replica, ∀ l, y.cluster.heldAt l i = x.cluster.heldAt l i := by
  unfold step at h
  split at h
  · exact absurd h (by simp)
  · rename_i r hr
    split at h
    · exact absurd h (by simp)
    · rename_i j r' hact
      cases h
      have hlt : m.replica < x.cluster.replicas.length := (List.getElem?_eq_some_iff.1 hr).1
      refine ⟨?_, fun p hp => if_neg hp, fun i hi l => ?_⟩
      · have heffect := Job.effect_of_act hact
        simpa only [Cluster.heldAt, hr, List.getElem?_set_self hlt, if_true] using heffect
      · simp only [Cluster.heldAt, List.getElem?_set_ne (Ne.symm hi)]

theorem run_append_singleton :
    x₀.run (ms ++ [m]) = some y ↔ ∃ x, x₀.run ms = some x ∧ x.step m = some y := by
  simp only [run, List.foldlM_append, List.foldlM_cons, List.foldlM_nil, bind_pure,
    Option.bind_eq_bind, Option.bind_eq_some_iff]

/-- What holds at the start and is kept by every step holds after every run. -/
theorem run_induction {P : List (Move n) → Traffic n → Prop} (hstart : P [] x₀)
    (hstep : ∀ ms x m y, x₀.run ms = some x → x.step m = some y → P ms x → P (ms ++ [m]) y)
    (hrun : x₀.run ms = some x) : P ms x := by
  induction ms using List.reverseRecOn generalizing x with
  | nil =>
      cases hrun
      exact hstart
  | append_singleton ms m ih =>
      obtain ⟨z, hz, hzx⟩ := run_append_singleton.1 hrun
      exact hstep ms z m x hz hzx (ih hz)

theorem run_cons (h : x.step m = some y) (ms : List (Move n)) :
    x.run (m :: ms) = y.run ms := by
  simp only [run, List.foldlM_cons, h, Option.bind_eq_bind, Option.bind_some]

theorem run_append (h : x.run ms = some y) (ms' : List (Move n)) :
    x.run (ms ++ ms') = y.run ms' := by
  simp only [run] at h ⊢
  rw [List.foldlM_append, h, Option.bind_eq_bind, Option.bind_some]

def HasRead (x : Traffic n) (p : Fin n) : Prop := (x.jobs p).unread = []

section

variable (hfresh : ∀ p, (x₀.jobs p).IsFresh l) (hrun : x₀.run ms = some x)
include hfresh hrun

theorem progress (p : Fin n) :
    (x₀.jobs p).Progress (x.jobs p) fun a i => ⟨p, a, i⟩ ∈ ms := by
  refine run_induction (P := fun ms x => (x₀.jobs p).Progress (x.jobs p) fun a i => ⟨p, a, i⟩ ∈ ms)
    ?_ (fun ms x m y _ hstep ih => ?_) hrun
  · simpa using (hfresh p).progress
  · obtain ⟨heffect, hothers, -⟩ := step_effect hstep
    obtain ⟨q, a, k⟩ := m
    -- The step adds to what its own write has done and to nothing else.
    by_cases hp : p = q
    · subst hp
      have hdone : (fun b i => ⟨p, b, i⟩ ∈ ms ++ [⟨p, a, k⟩]) =
          fun b i => (⟨p, b, i⟩ : Move n) ∈ ms ∨ b = a ∧ i = k := by
        ext b i
        simp
      rw [hdone]
      exact ih.step (hfresh p).asks heffect
    · have hdone : (fun b i => (⟨p, b, i⟩ : Move n) ∈ ms ++ [⟨q, a, k⟩]) =
          fun b i => ⟨p, b, i⟩ ∈ ms := by
        ext b i
        simp [hp]
      rw [hdone, hothers p hp]
      exact ih

theorem location_eq (p : Fin n) : (x.jobs p).location = l := by
  rw [← (hfresh p).location, Job.location, Job.location, (progress hfresh hrun p).request]

theorem step_effect_at (hstep : x.step m = some y) :
    Job.Effect x.cluster.settings.readRepair m.replica (x.jobs m.job)
        (x.cluster.heldAt l m.replica) m.act (y.jobs m.job) (y.cluster.heldAt l m.replica) ∧
      (∀ p ≠ m.job, y.jobs p = x.jobs p) ∧
      ∀ i ≠ m.replica, y.cluster.heldAt l i = x.cluster.heldAt l i := by
  obtain ⟨heffect, hothers, helsewhere⟩ := step_effect hstep
  rw [location_eq hfresh hrun] at heffect
  exact ⟨heffect, hothers, fun i hi => helsewhere i hi l⟩

theorem reach_step (hstep : x.step m = some y) {i : Nat} {k : Clock}
    (h : Reach (x.cluster.heldAt l i) k) : Reach (y.cluster.heldAt l i) k := by
  obtain ⟨heffect, -, helsewhere⟩ := step_effect_at hfresh hrun hstep
  by_cases hi : i = m.replica
  · subst hi
    exact heffect.reach h
  · rwa [helsewhere i hi]

theorem version_step (hstep : x.step m = some y) {p : Fin n} (hread : x.HasRead p) :
    y.HasRead p ∧ (y.jobs p).version = (x.jobs p).version := by
  obtain ⟨heffect, hothers, -⟩ := step_effect_at hfresh hrun hstep
  by_cases hp : p = m.job
  · subst hp
    exact heffect.version_eq hread
  · rw [HasRead, hothers p hp]
    exact ⟨hread, rfl⟩

theorem gathered_step (hstep : x.step m = some y) (p : Fin n) :
    (x.jobs p).gathered ⊆ (y.jobs p).gathered := by
  obtain ⟨heffect, hothers, -⟩ := step_effect_at hfresh hrun hstep
  by_cases hp : p = m.job
  · subst hp
    exact heffect.gathered_subset
  · rw [hothers p hp]
    exact List.Subset.refl _

end

section

variable (hfresh : ∀ p, (x₀.jobs p).IsFresh l) (hrun : x₀.run ms = some x)
include hfresh hrun

theorem reach_start {i : Nat} {k : Clock} (h : Reach (x₀.cluster.heldAt l i) k) :
    Reach (x.cluster.heldAt l i) k :=
  run_induction (P := fun _ x => Reach (x.cluster.heldAt l i) k) h
    (fun _ _ _ _ hrun hstep ih => reach_step hfresh hrun hstep ih) hrun

end

end Traffic

end SiblingStore
