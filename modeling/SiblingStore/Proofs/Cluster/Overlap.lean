import SiblingStore.Proofs.Cluster.Steps
import SiblingStore.Proofs.Cluster.Turns

/-!
# Clocks of writes that overlap

A write takes its clock past whatever it read. So of two writes of which one read a
replica that the other had written to, the clocks differ. Two writes of one writer that
both read before either wrote count the same, and each replica then keeps the one that
came last.
-/

namespace SiblingStore

open Version (Reach settle)

theorem Job.not_le_of_reach {j : Job}
    (hroom : (Cluster.writeBase j.request.writer.toHex j.context j.gathered).Room
      j.request.writer.toHex) {k : Clock} (h : Reach j.gathered k) : ¬j.version.clock ≤ k := by
  intro hle
  obtain ⟨v, hv, hkv⟩ := h
  have hcount := Cluster.get_lt_writeClock hroom (.inr ⟨v, hv, hkv j.request.writer.toHex⟩)
  have hle' := Clock.toNat_get_le hle j.request.writer.toHex
  exact absurd hcount (Nat.not_lt.2 hle')

namespace Traffic

variable {n : Nat} {x₀ x y : Traffic n} {m : Move n} {ms : List (Move n)} {l : Location}

/-- Whether write `q` read a replica that write `p` had written to. -/
def Sees (ms : List (Move n)) (q p : Fin n) : Prop :=
  ∃ i, Before ms ⟨p, .write, i⟩ ⟨q, .read, i⟩

theorem sees_iff {p q : Fin n} : Sees ms q p ↔
    ∃ m ∈ ms, m = ⟨p, .write, m.replica⟩ ∧ Before ms m ⟨q, .read, m.replica⟩ := by
  constructor
  · rintro ⟨i, h⟩
    exact ⟨_, h.left_mem, rfl, h⟩
  · rintro ⟨m, -, hm, h⟩
    rw [hm] at h
    exact ⟨m.replica, h⟩

instance (p q : Fin n) : Decidable (Sees ms q p) := decidable_of_iff _ sees_iff.symm

section

variable (hfresh : ∀ p, (x₀.jobs p).IsFresh l) (hrun : x₀.run ms = some x)
include hfresh hrun

theorem reach_of_wrote {p : Fin n} {i : Nat} (h : ⟨p, .write, i⟩ ∈ ms) :
    Reach (x.cluster.heldAt l i) (x.jobs p).version.clock := by
  refine run_induction (P := fun ms x => ⟨p, .write, i⟩ ∈ ms →
    Reach (x.cluster.heldAt l i) (x.jobs p).version.clock) (fun h => absurd h List.not_mem_nil)
    (fun ms x m y hrun hstep ih h => ?_) hrun h
  rcases List.mem_append.1 h with h | h
  · have hread := (progress hfresh hrun p).ofWrote i h
    rw [(version_step hfresh hrun hstep hread).2]
    exact reach_step hfresh hrun hstep (ih h)
  · obtain ⟨heffect, -, -⟩ := step_effect_at hfresh hrun hstep
    rw [← List.mem_singleton.1 h] at heffect
    obtain ⟨hread, hsettle⟩ := heffect.settle_write
    rw [(version_step hfresh hrun hstep hread).2, hsettle]
    exact Version.reach_settle_self ..

theorem reach_of_sees {p q : Fin n} (h : Sees ms q p) :
    Reach (x.jobs q).gathered (x.jobs p).version.clock := by
  refine (run_induction (P := fun ms x => Sees ms q p → x.HasRead p ∧
    Reach (x.jobs q).gathered (x.jobs p).version.clock) ?_ (fun ms x m y hrun hstep ih h => ?_)
    hrun h).2
  · rintro ⟨i, h⟩
    exact absurd h.left_mem List.not_mem_nil
  · obtain ⟨i, h⟩ := h
    -- Either the read lies behind, or it is this step and the replica still reaches the write.
    rcases before_append_singleton.1 h with h | ⟨h, hm⟩
    · obtain ⟨hread, v, hv, hle⟩ := ih ⟨i, h⟩
      obtain ⟨hread', hversion⟩ := version_step hfresh hrun hstep hread
      refine ⟨hread', v, gathered_step hfresh hrun hstep q hv, ?_⟩
      rwa [hversion]
    · have hread := (progress hfresh hrun p).ofWrote i h
      obtain ⟨hread', hversion⟩ := version_step hfresh hrun hstep hread
      obtain ⟨heffect, -, -⟩ := step_effect_at hfresh hrun hstep
      rw [← hm] at heffect
      obtain ⟨v, hv, hle⟩ := reach_of_wrote hfresh hrun h
      refine ⟨hread', v, ?_, by rwa [hversion]⟩
      rw [heffect.gathered_read.2]
      exact List.mem_append_right _ hv

theorem reach_of_read {q : Fin n} {i : Nat} {k : Clock} (h : ⟨q, .read, i⟩ ∈ ms)
    (hk : Reach (x₀.cluster.heldAt l i) k) : Reach (x.jobs q).gathered k := by
  refine run_induction (P := fun ms x => ⟨q, .read, i⟩ ∈ ms → Reach (x.jobs q).gathered k)
    (fun h => absurd h List.not_mem_nil) (fun ms x m y hrun hstep ih h => ?_) hrun h
  rcases List.mem_append.1 h with h | h
  · obtain ⟨v, hv, hle⟩ := ih h
    exact ⟨v, gathered_step hfresh hrun hstep q hv, hle⟩
  · obtain ⟨heffect, -, -⟩ := step_effect_at hfresh hrun hstep
    rw [← List.mem_singleton.1 h] at heffect
    obtain ⟨v, hv, hle⟩ := reach_start hfresh hrun hk
    refine ⟨v, ?_, hle⟩
    rw [heffect.gathered_read.2]
    exact List.mem_append_right _ hv

theorem heldAt_of_not_wrote {i : Nat} (h : ∀ p, ⟨p, .write, i⟩ ∉ ms) :
    x.cluster.heldAt l i = x₀.cluster.heldAt l i := by
  refine run_induction (P := fun ms x => (∀ p, ⟨p, .write, i⟩ ∉ ms) →
    x.cluster.heldAt l i = x₀.cluster.heldAt l i) (fun _ => rfl)
    (fun ms x m y hrun hstep ih h => ?_) hrun h
  have hbefore := ih fun p hp => h p (List.mem_append_left _ hp)
  obtain ⟨heffect, -, helsewhere⟩ := step_effect_at hfresh hrun hstep
  by_cases hi : i = m.replica
  · subst hi
    have hprogress := progress hfresh (run_append_singleton.2 ⟨x, hrun, hstep⟩) m.job
    have hwrite : m.act ≠ .write := by
      intro hact
      refine h m.job ?_
      rw [← hact]
      simp
    -- A repair would come after a write of the same job to this replica.
    have hrepair : m.act ≠ .repair := by
      intro hact
      refine h m.job (hprogress.ofRepaired _ ?_)
      rw [← hact]
      simp
    rw [heffect.eq_of_harmless hwrite hrepair, hbefore]
  · rw [helsewhere i hi, hbefore]

/-- A write that saw no other has gathered what was there at the start. -/
theorem mem_gathered_of_unseen {q : Fin n} (h : ∀ p, ¬Sees ms q p) {v : Version} :
    v ∈ (x.jobs q).gathered ↔ ∃ i, ⟨q, .read, i⟩ ∈ ms ∧ v ∈ x₀.cluster.heldAt l i := by
  refine run_induction (P := fun ms x => (∀ p, ¬Sees ms q p) → (v ∈ (x.jobs q).gathered ↔
    ∃ i, ⟨q, .read, i⟩ ∈ ms ∧ v ∈ x₀.cluster.heldAt l i)) ?_
    (fun ms x m y hrun hstep ih h => ?_) hrun h
  · intro _
    rw [(hfresh q).gathered]
    simp
  · have hbefore := ih fun p hp => h p (hp.imp fun i hi => before_append_singleton.2 (.inl hi))
    obtain ⟨heffect, hothers, -⟩ := step_effect_at hfresh hrun hstep
    by_cases hread : m.job = q ∧ m.act = .read
    · obtain ⟨rfl, hact⟩ := hread
      have hm : m = ⟨m.job, .read, m.replica⟩ := by rw [← hact]
      -- Whoever had written to this replica would be seen by the read.
      have hheld : x.cluster.heldAt l m.replica = x₀.cluster.heldAt l m.replica := by
        refine heldAt_of_not_wrote hfresh hrun fun p hp => h p ⟨m.replica, ?_⟩
        exact before_append_singleton.2 (.inr ⟨hp, hm.symm⟩)
      rw [hact] at heffect
      rw [heffect.gathered_read.2, List.mem_append, hbefore, hheld]
      constructor
      · rintro (⟨i, hi, hv⟩ | hv)
        · exact ⟨i, List.mem_append_left _ hi, hv⟩
        · exact ⟨m.replica, by rw [← hm]; simp, hv⟩
      · rintro ⟨i, hi, hv⟩
        rcases List.mem_append.1 hi with hi | hi
        · exact .inl ⟨i, hi, hv⟩
        · rw [← List.mem_singleton.1 hi]
          exact .inr hv
    · have hsame : (y.jobs q).gathered = (x.jobs q).gathered := by
        by_cases hq : q = m.job
        · subst hq
          exact heffect.gathered_of_ne fun hact => hread ⟨rfl, hact⟩
        · rw [hothers q hq]
      have hmem : ∀ i, ⟨q, .read, i⟩ ∈ ms ++ [m] ↔ ⟨q, .read, i⟩ ∈ ms := by
        intro i
        rw [List.mem_append, List.mem_singleton]
        refine or_iff_left fun hm => hread ?_
        rw [← hm]
        exact ⟨rfl, rfl⟩
      simp only [hsame, hmem]
      exact hbefore

/-- Whether a version was there at the start or is that of a write that has read everything. -/
def Stems (x₀ x : Traffic n) (l : Location) (v : Version) : Prop :=
  (∃ i, v ∈ x₀.cluster.heldAt l i) ∨ ∃ p, x.HasRead p ∧ v = (x.jobs p).version

theorem Stems.step (hstep : x.step m = some y) {v : Version} (h : Stems x₀ x l v) :
    Stems x₀ y l v := by
  rcases h with h | ⟨p, hread, rfl⟩
  · exact .inl h
  · obtain ⟨hread', hversion⟩ := version_step hfresh hrun hstep hread
    exact .inr ⟨p, hread', hversion.symm⟩

/-- Replicas hold, and answer, nothing that nobody wrote. -/
theorem stems (i : Nat) {v : Version} (hv : v ∈ x.cluster.heldAt l i) : Stems x₀ x l v := by
  refine (run_induction (P := fun _ x => (∀ i, ∀ v ∈ x.cluster.heldAt l i, Stems x₀ x l v) ∧
    ∀ p, ∀ b ∈ (x.jobs p).answers, ∀ v ∈ b.2, Stems x₀ x l v) ?_
    (fun ms x m y hrun hstep ih => ?_) hrun).1 i v hv
  · refine ⟨fun i v hv => .inl ⟨i, hv⟩, fun p b hb => ?_⟩
    rw [(hfresh p).answers] at hb
    exact absurd hb List.not_mem_nil
  · obtain ⟨hheld, hanswers⟩ := ih
    obtain ⟨heffect, hothers, helsewhere⟩ := step_effect_at hfresh hrun hstep
    refine ⟨fun i v hv => ?_, fun p b hb v hv => ?_⟩
    · refine Stems.step hfresh hrun hstep ?_
      by_cases hi : i = m.replica
      · subst hi
        rcases heffect.mem_or hv with hv | ⟨hread, rfl⟩ | ⟨b, hb, hv⟩
        · exact hheld _ v hv
        · exact .inr ⟨m.job, hread, rfl⟩
        · exact hanswers m.job b hb v hv
      · rw [helsewhere i hi] at hv
        exact hheld i v hv
    · refine Stems.step hfresh hrun hstep ?_
      by_cases hp : p = m.job
      · subst hp
        rcases heffect.mem_answers_or hb with hb | ⟨-, hb⟩
        · exact hanswers m.job b hb v hv
        · rw [hb] at hv
          exact hheld _ v hv
      · rw [hothers p hp] at hb
        exact hanswers p b hb v hv

end

/-! ## Clocks -/

def Known (x : Traffic n) (l : Location) (v : Version) : Prop := Stems x x l v

section

variable {n : Nat} {c : Cluster} {l : Location} {rs : Fin n → PutRequest}
  {stamps : Fin n → Stamp} {js : Fin n → Job} (hl : ∀ p, (rs p).location = l)
  (hstart : ∀ p, c.startPut (rs p) (stamps p) = .ok (js p)) {ms : List (Move n)} {x : Traffic n}
  (hrun : run ⟨c, js⟩ ms = some x)
  (hroom : ∀ p, (Cluster.writeBase (rs p).writer.toHex (js p).context (x.jobs p).gathered).Room
    (rs p).writer.toHex)
include hl hstart

theorem isFresh_of_start (p : Fin n) : (js p).IsFresh l := by
  obtain ⟨hfresh, -, -⟩ := Cluster.isFresh_of_startPut (hstart p)
  rwa [hl p] at hfresh

include hrun

theorem mem_read_iff {p : Fin n} (hp : x.HasRead p) {i : Nat} :
    ⟨p, .read, i⟩ ∈ ms ↔ i ∈ c.live := by
  have hprogress := progress (isFresh_of_start hl hstart) hrun p
  obtain ⟨-, -, hunread⟩ := Cluster.isFresh_of_startPut (hstart p)
  rw [← hunread]
  refine ⟨hprogress.ofRead i, fun hi => ?_⟩
  rcases hprogress.read i hi with hi | hi
  · rw [hp] at hi
    exact absurd hi List.not_mem_nil
  · exact hi

include hroom

theorem not_le_of_reach {q : Fin n} {k : Clock} (h : Reach (x.jobs q).gathered k) :
    ¬(x.jobs q).version.clock ≤ k := by
  obtain ⟨-, hrequest, -⟩ := Cluster.isFresh_of_startPut (hstart q)
  have hprogress := progress (isFresh_of_start hl hstart) hrun q
  refine Job.not_le_of_reach ?_ h
  rw [hprogress.request, hprogress.context, hrequest]
  exact hroom q

theorem compare_ne_of_sees {p q : Fin n} (h : Sees ms q p) :
    (x.jobs q).version.clock.compare (x.jobs p).version.clock ≠ .equal := by
  intro hequal
  have hreach := reach_of_sees (isFresh_of_start hl hstart) hrun h
  exact not_le_of_reach hl hstart hrun hroom hreach (Clock.compare_eq_equal_iff.1 hequal).1

omit hroom in
theorem clock_eq_of_unseen {p q : Fin n} (hp : x.HasRead p) (hq : x.HasRead q)
    (hwriter : (rs p).writer = (rs q).writer) (hcontext : (js p).context = (js q).context)
    (hunseen : ∀ o, ¬Sees ms p o ∧ ¬Sees ms q o) :
    (x.jobs p).version.clock = (x.jobs q).version.clock := by
  have hfresh : ∀ p, (js p).IsFresh l := isFresh_of_start hl hstart
  have hgathered : ∀ v, v ∈ (x.jobs p).gathered ↔ v ∈ (x.jobs q).gathered := by
    intro v
    rw [mem_gathered_of_unseen hfresh hrun fun o => (hunseen o).1,
      mem_gathered_of_unseen hfresh hrun fun o => (hunseen o).2]
    simp only [mem_read_iff hl hstart hrun hp, mem_read_iff hl hstart hrun hq]
  have hhighest : ∀ actor, Cluster.highest actor (x.jobs p).gathered =
      Cluster.highest actor (x.jobs q).gathered := by
    intro actor
    refine UInt64.le_antisymm (Cluster.highest_le fun v hv => ?_)
      (Cluster.highest_le fun v hv => ?_)
    · exact Cluster.le_highest ((hgathered v).1 hv) actor
    · exact Cluster.le_highest ((hgathered v).2 hv) actor
  have hp' := progress hfresh hrun p
  have hq' := progress hfresh hrun q
  obtain ⟨-, hrp, -⟩ := Cluster.isFresh_of_startPut (hstart p)
  obtain ⟨-, hrq, -⟩ := Cluster.isFresh_of_startPut (hstart q)
  simp only [Job.version, Version.live, hp'.request, hq'.request, hp'.context, hq'.context, hrp,
    hrq, hwriter, hcontext, Cluster.writeClock, hhighest]

theorem compare_ne_of_start (hup : ∀ r ∈ c.replicas, r.up = true) {q : Fin n} (hq : x.HasRead q)
    {i : Nat} {v : Version} (hv : v ∈ c.heldAt l i) :
    (x.jobs q).version.clock.compare v.clock ≠ .equal := by
  intro hequal
  have hfresh : ∀ p, (js p).IsFresh l := isFresh_of_start hl hstart
  have hlive : i ∈ c.live := by
    rw [Cluster.mem_live_iff]
    unfold Cluster.heldAt at hv
    split at hv
    · rename_i r hr
      exact ⟨r, hr, hup r (List.mem_of_getElem? hr)⟩
    · exact absurd hv List.not_mem_nil
  have hread := (mem_read_iff hl hstart hrun hq).2 hlive
  have hreach := reach_of_read hfresh hrun hread ⟨v, hv, le_rfl⟩
  exact not_le_of_reach hl hstart hrun hroom hreach (Clock.compare_eq_equal_iff.1 hequal).1

end

theorem stems_of_known {n : Nat} {x₀ x : Traffic n} {ms : List (Move n)} {l : Location}
    (hfresh : ∀ p, (x₀.jobs p).IsFresh l) (hrun : x₀.run ms = some x) {v : Version}
    (h : x.Known l v) : Stems x₀ x l v := by
  rcases h with ⟨i, hv⟩ | h
  · exact stems hfresh hrun i hv
  · exact .inr h

/-- Writes to one location, their steps in any order. The clock of a write differs from
those of the writes that it saw; two writes of one writer on the same context that saw no
third are of one clock exactly if neither saw the other. If of every two writes one saw the
other, and no two versions were of one clock before, then no two versions are, whether held
by replicas or about to be. -/
theorem overlapping_writes {n : Nat} {c : Cluster} {l : Location} {rs : Fin n → PutRequest}
    {stamps : Fin n → Stamp} {js : Fin n → Job} (hl : ∀ p, (rs p).location = l)
    (hup : ∀ r ∈ c.replicas, r.up = true)
    (hstart : ∀ p, c.startPut (rs p) (stamps p) = .ok (js p)) {ms : List (Move n)}
    {x : Traffic n} (hrun : run ⟨c, js⟩ ms = some x)
    (hroom : ∀ p, (Cluster.writeBase (rs p).writer.toHex (js p).context
      (x.jobs p).gathered).Room (rs p).writer.toHex) :
    (∀ p q, Sees ms q p →
        (x.jobs q).version.clock.compare (x.jobs p).version.clock ≠ .equal) ∧
      (∀ p q, x.HasRead p → x.HasRead q → (rs p).writer = (rs q).writer →
        (js p).context = (js q).context →
        (∀ o, o ≠ p → o ≠ q → ¬Sees ms p o ∧ ¬Sees ms q o) →
          ((x.jobs p).version.clock.compare (x.jobs q).version.clock = .equal ↔
            ¬Sees ms p q ∧ ¬Sees ms q p)) ∧
      ((∀ p q, p ≠ q → x.HasRead p → x.HasRead q → Sees ms p q ∨ Sees ms q p) →
        (∀ i i', ∀ v ∈ c.heldAt l i, ∀ w ∈ c.heldAt l i',
          v.clock.compare w.clock = .equal → v = w) →
        ∀ v w, x.Known l v → x.Known l w → v.clock.compare w.clock = .equal → v = w) := by
  have hne : ∀ {p q}, Sees ms q p →
      (x.jobs q).version.clock.compare (x.jobs p).version.clock ≠ .equal :=
    compare_ne_of_sees hl hstart hrun hroom
  refine ⟨fun p q => hne, fun p q hp hq hwriter hcontext hthird => ?_,
    fun hsees hclear v w hv hw hequal => ?_⟩
  · constructor
    · exact fun hequal => ⟨fun h => hne h hequal, fun h => hne h (Clock.compare_equal_symm hequal)⟩
    · rintro ⟨hpq, hqp⟩
      have hself : ∀ o, ¬Sees ms o o := fun o h =>
        hne h (Clock.compare_self _)
      have hunseen : ∀ o, ¬Sees ms p o ∧ ¬Sees ms q o := by
        intro o
        by_cases hop : o = p
        · subst hop
          exact ⟨hself o, hqp⟩
        · by_cases hoq : o = q
          · subst hoq
            exact ⟨hpq, hself o⟩
          · exact hthird o hop hoq
      rw [clock_eq_of_unseen hl hstart hrun hp hq hwriter hcontext hunseen]
      exact Clock.compare_self _
  · have hfresh : ∀ p, (js p).IsFresh l := isFresh_of_start hl hstart
    rcases stems_of_known hfresh hrun hv with ⟨i, hv⟩ | ⟨p, hp, rfl⟩
    · rcases stems_of_known hfresh hrun hw with ⟨i', hw⟩ | ⟨q, hq, rfl⟩
      · exact hclear i i' v hv w hw hequal
      · exact absurd (Clock.compare_equal_symm hequal)
          (compare_ne_of_start hl hstart hrun hroom hup hq hv)
    · rcases stems_of_known hfresh hrun hw with ⟨i', hw⟩ | ⟨q, hq, rfl⟩
      · exact absurd hequal (compare_ne_of_start hl hstart hrun hroom hup hp hw)
      · by_cases hpq : p = q
        · rw [hpq]
        · rcases hsees p q hpq hp hq with h | h
          · exact absurd hequal (hne h)
          · exact absurd (Clock.compare_equal_symm hequal) (hne h)

def blindPut (p : Fin 2) : PutRequest :=
  ⟨⟨"b", "k"⟩, [UInt8.ofNat p.val], [], .ofNat 1, .majority, false⟩

def blindJob (p : Fin 2) : Job :=
  { request := blindPut p, stamp := ⟨"t", 0⟩, context := .empty
    unread := [0, 1, 2], unwritten := [0, 1, 2], unasked := [] }

/-- Two writes that read everything before they write in opposite orders. -/
def crossing : List (Move 2) :=
  [⟨0, .read, 0⟩, ⟨0, .read, 1⟩, ⟨0, .read, 2⟩, ⟨1, .read, 0⟩, ⟨1, .read, 1⟩, ⟨1, .read, 2⟩,
    ⟨0, .write, 0⟩, ⟨1, .write, 0⟩, ⟨1, .write, 1⟩, ⟨0, .write, 1⟩, ⟨0, .write, 2⟩, ⟨1, .write, 2⟩]

/-- Both writes are done, their clocks are equal, and two replicas hold different values. -/
theorem crossing_writes :
    ∃ x, run ⟨Cluster.empty {} default, blindJob⟩ crossing = some x ∧
      (∀ p, (x.jobs p).isDone true = true) ∧
      (x.jobs 0).version.clock.compare (x.jobs 1).version.clock = .equal ∧
      x.cluster.heldAt ⟨"b", "k"⟩ 0 = [(x.jobs 1).version] ∧
      x.cluster.heldAt ⟨"b", "k"⟩ 1 = [(x.jobs 0).version] ∧
      (x.jobs 0).version.value ≠ (x.jobs 1).version.value := by
  have hstart : ∀ p, (Cluster.empty {} default).startPut (blindPut p) ⟨"t", 0⟩ =
      .ok (blindJob p) := fun _ => rfl
  obtain ⟨x, hx⟩ := Option.isSome_iff_exists.1 (show
    (run ⟨Cluster.empty {} default, blindJob⟩ crossing).isSome = true by decide +kernel)
  have hread : (run ⟨Cluster.empty {} default, blindJob⟩ crossing).map (fun x =>
      decide (∀ p, (x.jobs p).isDone true = true ∧ (x.jobs p).unread = [] ∧
        (x.jobs p).gathered = [])) = some true := by
    decide +kernel
  have hheld : (run ⟨Cluster.empty {} default, blindJob⟩ crossing).map (fun x =>
      decide (x.cluster.heldAt ⟨"b", "k"⟩ 0 = [(x.jobs 1).version] ∧
        x.cluster.heldAt ⟨"b", "k"⟩ 1 = [(x.jobs 0).version] ∧
        (x.jobs 0).version.value ≠ (x.jobs 1).version.value)) = some true := by
    decide +kernel
  rw [hx, Option.map_some, Option.some_inj, decide_eq_true_eq] at hread hheld
  have hroom : ∀ p, (Cluster.writeBase (blindPut p).writer.toHex (blindJob p).context
      (x.jobs p).gathered).Room (blindPut p).writer.toHex := by
    intro p
    rw [(hread p).2.2]
    unfold Clock.Room
    revert p
    decide +kernel
  obtain ⟨-, hequal, -⟩ := overlapping_writes (l := ⟨"b", "k"⟩) (fun _ => rfl) (by decide +kernel)
    hstart hx hroom
  have hthird : ∀ o : Fin 2, o ≠ 0 → o ≠ 1 → ¬Sees crossing 0 o ∧ ¬Sees crossing 1 o := by
    decide
  refine ⟨x, hx, fun p => (hread p).1, ?_, hheld⟩
  exact (hequal 0 1 (hread 0).2.1 (hread 1).2.1 rfl rfl hthird).2 (by decide)

end Traffic

end SiblingStore
