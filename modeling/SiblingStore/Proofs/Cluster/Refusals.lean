import SiblingStore.Proofs.Client.Calls
import SiblingStore.Proofs.Cluster.Whole

/-!
# Refusals

A request is refused by the first of its checks that fails: the names, the range of the quorum,
the number of replicas that are up and last the context of a put. Only a lack of replicas is
transient. Since the context is looked at last, a put that can never be met is refused as if it
could, as long as replicas are lacking.
-/

namespace SiblingStore

/-! ## What a request needs -/

def Request.Named : Request → Prop
  | .get l _ | .delete l _ => l.Named
  | .put p => p.location.Named
  | .listKeys bucket => bucket ≠ ""

/-- Whether the context of a request can be read, if it carries one. -/
def Request.Readable : Request → Prop
  | .put p => ∃ context, Clock.ofBytes p.context = .ok context
  | .get .. | .delete .. | .listKeys _ => True

namespace Cluster

def needs (c : Cluster) : Request → Nat
  | .get _ q => q.required c.size c.settings.readQuorum
  | .put p => p.quorum.required c.size c.settings.writeQuorum
  | .delete _ q => q.required c.size c.settings.writeQuorum
  | .listKeys _ => 1

structure Affords (c : Cluster) (r : Request) : Prop where
  named : r.Named
  pos : 0 < c.needs r
  le_size : c.needs r ≤ c.size

/-- Whether replicas that would be enough for a request are not up. -/
structure Lacks (c : Cluster) (r : Request) : Prop extends c.Affords r where
  lt_needs : c.liveCount < c.needs r

def healed (c : Cluster) : Cluster :=
  { c with replicas := c.replicas.map fun r => { r with up := true } }

@[simp] theorem size_healed (c : Cluster) : c.healed.size = c.size := List.length_map _

@[simp] theorem settings_healed (c : Cluster) : c.healed.settings = c.settings := rfl

@[simp] theorem liveCount_healed (c : Cluster) : c.healed.liveCount = c.size := by
  rw [← size_healed]
  refine List.countP_eq_length.2 fun r hr => ?_
  obtain ⟨r', -, rfl⟩ := List.mem_map.1 hr
  rfl

theorem needs_healed (c : Cluster) (r : Request) : c.healed.needs r = c.needs r := by
  cases r <;> simp [needs]

theorem affords_healed_iff {c : Cluster} {r : Request} : c.healed.Affords r ↔ c.Affords r := by
  constructor
  · rintro ⟨hnamed, hpos, hle⟩
    rw [needs_healed] at hpos hle
    exact ⟨hnamed, hpos, by rwa [size_healed] at hle⟩
  · rintro ⟨hnamed, hpos, hle⟩
    exact ⟨hnamed, by rwa [needs_healed], by rwa [needs_healed, size_healed]⟩

/-! ## Checks -/

theorem checkLocation_cases (l : Location) :
    l.Named ∧ checkLocation l = .ok () ∨
      ¬l.Named ∧ ∃ reason, checkLocation l = .error (.malformed reason) := by
  unfold checkLocation Location.Named
  split_ifs with hbucket hkey
  · exact .inr ⟨fun h => h.1 (by simpa using hbucket), _, rfl⟩
  · exact .inr ⟨fun h => h.2 (by simpa using hkey), _, rfl⟩
  · exact .inl ⟨⟨by simpa using hbucket, by simpa using hkey⟩, rfl⟩

def guarded (c : Cluster) (l : Location) (q : Quorum) (standard : Nat)
    (left : Except EngineError Unit) : Except EngineError Unit := do
  checkLocation l
  let _ ← c.checkQuorum q standard
  left

def checks (c : Cluster) : Request → Except EngineError Unit
  | .get l q => c.guarded l q c.settings.readQuorum (.ok ())
  | .put p =>
    c.guarded p.location p.quorum c.settings.writeQuorum <|
      match Clock.ofBytes p.context with
      | .error fault => .error (.malformed (.badContext fault p.context))
      | .ok _ => .ok ()
  | .delete l q => c.guarded l q c.settings.writeQuorum (.ok ())
  | .listKeys bucket =>
    if bucket.isEmpty then .error (.malformed .emptyBucket)
    else if c.liveCount = 0 then .error (.quorumNotMet 1 0)
    else .ok ()

theorem map_answer (c : Cluster) (stamp : Stamp) (r : Request) :
    (c.answer stamp r).1.map (fun _ => ()) = c.checks r := by
  cases r with
  | get l q =>
      simp only [answer, get, checks, guarded]
      cases checkLocation l with
      | error e => rfl
      | ok => cases c.checkQuorum q c.settings.readQuorum <;> rfl
  | put p =>
      simp only [answer, put, checks, guarded]
      cases checkLocation p.location with
      | error e => rfl
      | ok =>
          cases c.checkQuorum p.quorum c.settings.writeQuorum with
          | error e => rfl
          | ok n =>
              cases Clock.ofBytes p.context with
              | error fault => rfl
              | ok context => cases p.returnBody <;> rfl
  | delete l q =>
      simp only [answer, delete, checks, guarded]
      cases checkLocation l with
      | error e => rfl
      | ok => cases c.checkQuorum q c.settings.writeQuorum <;> rfl
  | listKeys bucket =>
      simp only [answer, listKeys, checks]
      split_ifs <;> rfl

/-! ## How checks turn out -/

theorem checkQuorum_cases (c : Cluster) (q : Quorum) (standard : Nat) :
    (¬q.InRange c.size standard ∧
        ∃ reason, c.checkQuorum q standard = .error (.malformed reason)) ∨
      (q.InRange c.size standard ∧ c.liveCount < q.required c.size standard ∧
        c.checkQuorum q standard =
          .error (.quorumNotMet (q.required c.size standard) c.liveCount)) ∨
      (q.InRange c.size standard ∧ q.required c.size standard ≤ c.liveCount ∧
        c.checkQuorum q standard = .ok (q.required c.size standard)) := by
  unfold checkQuorum Quorum.InRange
  dsimp only
  split_ifs with hrange hlive
  · exact .inl ⟨by omega, _, rfl⟩
  · exact .inr (.inl ⟨by omega, hlive, rfl⟩)
  · exact .inr (.inr ⟨by omega, by omega, rfl⟩)

inductive Screens (c : Cluster) (r : Request) : Except EngineError Unit → Prop where
  | rejected (h : ¬c.Affords r) (reason : Rejection) : c.Screens r (.error (.malformed reason))
  | lacking (h : c.Lacks r) : c.Screens r (.error (.quorumNotMet (c.needs r) c.liveCount))
  | unreadable (h : c.Affords r) (hlive : c.needs r ≤ c.liveCount) (hread : ¬r.Readable)
      (reason : Rejection) : c.Screens r (.error (.malformed reason))
  | met (h : c.Affords r) (hlive : c.needs r ≤ c.liveCount) (hread : r.Readable) :
      c.Screens r (.ok ())

theorem screens_guarded {c : Cluster} {l : Location} {q : Quorum} {standard : Nat}
    {left : Except EngineError Unit} {r : Request} (hnamed : r.Named ↔ l.Named)
    (hneeds : c.needs r = q.required c.size standard)
    (hleft : c.Affords r → c.needs r ≤ c.liveCount → c.Screens r left) :
    c.Screens r (c.guarded l q standard left) := by
  have hrange : ∀ h : c.Affords r, q.InRange c.size standard :=
    fun h => ⟨hneeds ▸ h.pos, hneeds ▸ h.le_size⟩
  unfold guarded
  rcases checkLocation_cases l with ⟨hl, hlocation⟩ | ⟨hl, reason, hlocation⟩
  · rcases c.checkQuorum_cases q standard with
      ⟨hout, reason, hquorum⟩ | ⟨hin, hlive, hquorum⟩ | ⟨hin, hlive, hquorum⟩
    · rw [hlocation, hquorum]
      exact .rejected (fun h => hout (hrange h)) reason
    · rw [hlocation, hquorum, ← hneeds]
      rw [← hneeds] at hlive
      exact .lacking ⟨⟨hnamed.2 hl, hneeds ▸ hin.1, hneeds ▸ hin.2⟩, hlive⟩
    · rw [hlocation, hquorum]
      exact hleft ⟨hnamed.2 hl, hneeds ▸ hin.1, hneeds ▸ hin.2⟩ (hneeds ▸ hlive)
  · rw [hlocation]
    exact .rejected (fun h => hl (hnamed.1 h.named)) reason

theorem screens_checks {c : Cluster} (hsize : 0 < c.size) (r : Request) :
    c.Screens r (c.checks r) := by
  cases r with
  | get l q => exact screens_guarded Iff.rfl rfl fun h hlive => .met h hlive trivial
  | put p =>
      refine screens_guarded Iff.rfl rfl fun h hlive => ?_
      cases hcontext : Clock.ofBytes p.context with
      | error fault =>
          refine .unreadable h hlive ?_ _
          rintro ⟨context, hread⟩
          rw [hcontext] at hread
          cases hread
      | ok context => exact .met h hlive ⟨context, hcontext⟩
  | delete l q => exact screens_guarded Iff.rfl rfl fun h hlive => .met h hlive trivial
  | listKeys bucket =>
      rw [checks]
      by_cases hempty : bucket.isEmpty = true
      · rw [if_pos hempty]
        refine .rejected (fun h => ?_) _
        exact absurd (String.isEmpty_iff.1 hempty) h.named
      · have haffords : c.Affords (.listKeys bucket) :=
          ⟨fun h => hempty (String.isEmpty_iff.2 h), Nat.one_pos, hsize⟩
        rw [if_neg hempty]
        rcases Nat.eq_zero_or_pos c.liveCount with hnone | hlive
        · have hlacking := Screens.lacking ⟨haffords, hnone ▸ Nat.one_pos⟩
          rw [if_pos hnone]
          rwa [hnone] at hlacking
        · rw [if_neg hlive.ne']
          exact .met haffords hlive trivial

/-! ## The result -/

variable {c : Cluster} {stamp : Stamp} {r : Request}

/-- An error is transient exactly if replicas are lacking. -/
theorem isTransient_iff_lacks (hsize : 0 < c.size) {e : EngineError}
    (h : (c.answer stamp r).1 = .error e) : e.isTransient = true ↔ c.Lacks r := by
  have hscreens := screens_checks hsize r
  rw [← c.map_answer stamp r, h] at hscreens
  cases hscreens with
  | rejected hshort reason =>
      exact iff_of_false Bool.false_ne_true fun hlacks => hshort hlacks.toAffords
  | lacking hlacks => exact iff_of_true rfl hlacks
  | unreadable _ hlive _ reason =>
      exact iff_of_false Bool.false_ne_true fun hlacks => absurd hlacks.lt_needs (by omega)

theorem exists_answer_iff (hsize : 0 < c.size) :
    (∃ reply, (c.answer stamp r).1 = .ok reply) ↔
      c.Affords r ∧ c.needs r ≤ c.liveCount ∧ r.Readable := by
  have hscreens := screens_checks hsize r
  rw [← c.map_answer stamp r] at hscreens
  cases hanswer : (c.answer stamp r).1 with
  | error e =>
      rw [hanswer] at hscreens
      refine iff_of_false (by rintro ⟨reply, hreply⟩; cases hreply) ?_
      rintro ⟨haffords, hlive, hread⟩
      cases hscreens with
      | rejected hshort reason => exact hshort haffords
      | lacking hlacks => exact absurd hlacks.lt_needs (by omega)
      | unreadable _ _ hunread reason => exact hunread hread
  | ok reply =>
      rw [hanswer] at hscreens
      cases hscreens with
      | met haffords hlive hread => exact iff_of_true ⟨reply, rfl⟩ ⟨haffords, hlive, hread⟩

/-- With all replicas up a request is met if there are enough of them and its context can be
read. -/
theorem exists_answer_healed_iff (hsize : 0 < c.size) :
    (∃ reply, (c.healed.answer stamp r).1 = .ok reply) ↔ c.Affords r ∧ r.Readable := by
  rw [exists_answer_iff (by rwa [size_healed]), affords_healed_iff, needs_healed,
    liveCount_healed]
  exact ⟨fun h => ⟨h.1, h.2.2⟩, fun h => ⟨h.1, h.1.le_size, h.2⟩⟩

/-- A request that fails, and would be met if all replicas were up, fails with a transient error.
A request that fails with a transient error would be met if all replicas were up, unless it is a
put whose context cannot be read and that already fails for lack of replicas. -/
theorem healed_of_transient_unless_unreadable (hsize : 0 < c.size) {e : EngineError}
    (h : (c.answer stamp r).1 = .error e) (stamp' : Stamp) :
    ((∃ reply, (c.healed.answer stamp' r).1 = .ok reply) → e.isTransient = true) ∧
      ((e.isTransient = true → ∃ reply, (c.healed.answer stamp' r).1 = .ok reply) ↔
        ¬(c.Lacks r ∧ ¬r.Readable)) := by
  rw [isTransient_iff_lacks hsize h, exists_answer_healed_iff hsize]
  constructor
  · rintro ⟨haffords, hread⟩
    -- what fails though it has names, enough replicas and a readable context lacks live ones
    refine ⟨haffords, ?_⟩
    by_contra hlive
    obtain ⟨reply, hreply⟩ : ∃ reply, (c.answer stamp r).1 = .ok reply :=
      (exists_answer_iff hsize).2 ⟨haffords, Nat.le_of_not_lt hlive, hread⟩
    rw [h] at hreply
    cases hreply
  · constructor
    · rintro hmet ⟨hlacks, hunread⟩
      exact hunread (hmet hlacks).2
    · intro hnone hlacks
      refine ⟨hlacks.toAffords, ?_⟩
      by_contra hunread
      exact hnone ⟨hlacks, hunread⟩

def outage : Cluster := ((empty {} default).setUp 1 false).setUp 2 false

def unreadablePut : Request := .put ⟨⟨"b", "k"⟩, [], [0x21], default, .standard, false⟩

theorem not_healed_of_transient_unreadablePut :
    ∃ e, (outage.answer ⟨"t", 1⟩ unreadablePut).1 = .error e ∧ e.isTransient = true ∧
      ¬∃ reply, (outage.healed.answer ⟨"t", 2⟩ unreadablePut).1 = .ok reply := by
  have hsize : 0 < outage.size := by decide
  have hunread : ¬unreadablePut.Readable := by
    rintro ⟨context, hcontext⟩
    have hfails : (Clock.ofBytes [0x21]).isOk = false := by decide +kernel
    rw [hcontext] at hfails
    cases hfails
  have hlacks : outage.Lacks unreadablePut :=
    ⟨⟨⟨by decide, by decide⟩, by decide, by decide⟩, by decide⟩
  cases hanswer : (outage.answer ⟨"t", 1⟩ unreadablePut).1 with
  | ok reply =>
      have hmet := (exists_answer_iff hsize).1 ⟨reply, hanswer⟩
      exact absurd hmet.2.2 hunread
  | error e =>
      have htransient := (isTransient_iff_lacks hsize hanswer).2 hlacks
      refine ⟨e, rfl, htransient, fun hmet => ?_⟩
      exact (healed_of_transient_unless_unreadable hsize hanswer ⟨"t", 2⟩).2.1
        (fun _ => hmet) ⟨hlacks, hunread⟩

end Cluster

end SiblingStore
