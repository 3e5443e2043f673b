import SiblingStore.Proofs.Cluster.Majority

/-!
# What a deletion has covered

A deletion writes a tombstone above all that the live replicas hold. Each of them
holds a version at or above the tombstone from then on, whatever it takes in, so as
long as one of them is asked nothing that was covered comes back.
-/

namespace SiblingStore

open Version (Reach)

def Deed.tag? : Deed → Option String
  | .put _ stamp | .delete _ _ stamp => some stamp.tag
  | .get .. | .setUp .. => none

namespace Cluster

/-! ## Replicas by number -/

def ReachesAt (c : Cluster) (i : Nat) (l : Location) (k : Clock) : Prop :=
  ∃ r, c.replicas[i]? = some r ∧ Reach (r.store.versions l) k

theorem isUp_iff {c : Cluster} {i : Nat} :
    c.isUp i = true ↔ ∃ r, c.replicas[i]? = some r ∧ r.up = true := by
  unfold isUp
  cases c.replicas[i]? <;> simp

theorem ReachesAt.grows {c c' : Cluster} {fresh : Option Version} {i : Nat} {l : Location}
    {k : Clock} (h : c.ReachesAt i l k) (hgrows : c.Grows fresh c') : c'.ReachesAt i l k := by
  obtain ⟨r, hr, hreach⟩ := h
  obtain ⟨hi, rfl⟩ := List.getElem?_eq_some_iff.1 hr
  have hi' : i < c'.replicas.length := by
    rw [← hgrows.2.2.length_eq]
    exact hi
  have htakes : c.Takes fresh c.replicas[i] c'.replicas[i] := hgrows.2.2.get hi hi'
  exact ⟨c'.replicas[i], List.getElem?_eq_getElem hi', htakes.reach hreach⟩

theorem ReachesAt.after {c : Cluster} {i : Nat} {l : Location} {k : Clock}
    (h : c.ReachesAt i l k) (ds : List Deed) : (c.after ds).ReachesAt i l k := by
  induction ds generalizing c with
  | nil => exact h
  | cons d ds ih => exact ih (h.grows (grows_apply c d))

theorem ReachesAt.held {c : Cluster} {i : Nat} {l : Location} {k : Clock}
    (h : c.ReachesAt i l k) (hup : c.isUp i = true) : Reach (c.held l) k := by
  obtain ⟨r, hr, v, hv, hle⟩ := h
  obtain ⟨r', hr', hrup⟩ := isUp_iff.1 hup
  obtain rfl := Option.some_inj.1 (hr.symm.trans hr')
  exact ⟨v, mem_held_iff.2 ⟨r, List.mem_of_getElem? hr, hrup, hv⟩, hle⟩

theorem reachesAt_write {c : Cluster} {i : Nat} (hup : c.isUp i = true) (v : Version) :
    (c.write v).ReachesAt i v.location v.clock := by
  obtain ⟨r, hr, hrup⟩ := isUp_iff.1 hup
  refine ⟨Replica.write v r, ?_, ?_⟩
  · rw [write, List.getElem?_map, hr]
    rfl
  · rw [Replica.versions_write, if_pos ⟨hrup, rfl⟩]
    exact Version.reach_settle_self _ v

/-! ## Tags -/

/-- Whether a version is the only one of its tag and stays so during a run. -/
def OwnsTag (c : Cluster) (v : Version) (ds : List Deed) : Prop :=
  (∀ w, c.Holds w → w.tag = v.tag → w = v) ∧ ∀ d ∈ ds, d.tag? ≠ some v.tag

theorem tag_of_version? {c : Cluster} {d : Deed} {v : Version} (h : c.version? d = some v) :
    d.tag? = some v.tag := by
  cases d with
  | get l q => exact absurd h (by simp [version?])
  | put r stamp =>
      obtain ⟨context, reply, -, -, rfl⟩ := version?_put h
      rfl
  | delete l q stamp =>
      obtain ⟨-, rfl⟩ := version?_delete h
      rfl
  | setUp i up => exact absurd h (by simp [version?])

theorem OwnsTag.apply {c : Cluster} {v : Version} {d : Deed} {ds : List Deed}
    (h : c.OwnsTag v (d :: ds)) : (c.apply d).OwnsTag v ds := by
  refine ⟨fun w hw htag => ?_, fun e he => h.2 e (by simp [he])⟩
  rcases (grows_apply c d).holds hw with hw | hw
  · exact h.1 w hw htag
  · exact absurd (htag ▸ tag_of_version? hw) (h.2 d (by simp))

theorem OwnsTag.after {c : Cluster} {v : Version} {ds : List Deed} (h : c.OwnsTag v ds) :
    (c.after ds).OwnsTag v [] := by
  induction ds generalizing c with
  | nil => exact h
  | cons d ds ih => exact ih h.apply

/-! ## Deletions -/

/-- What is below a clock that is reached does not remain, nor anything below it. -/
theorem not_le_of_mem_reconcile {vs : List Version} {v w : Version} {k : Clock}
    (hk : Reach vs k) (hv : v.clock < k) (hw : w ∈ reconcile vs) : ¬w.clock ≤ v.clock := by
  intro hle
  obtain ⟨e, he, hke⟩ := reach_reconcile_iff.2 hk
  have hlt : w.clock < e.clock := lt_of_le_of_lt hle (lt_of_lt_of_le hv hke)
  have heq : w = e := eq_of_le_of_mem (pairwise_reconcile vs) hw he hlt.le
  rw [heq] at hlt
  exact lt_irrefl _ hlt

theorem lt_deleteVersion {c : Cluster} {l : Location} {stamp : Stamp}
    (hroom : (coverOf (c.held l)).Room c.node.toHex) {v : Version} (hv : v ∈ c.held l) :
    v.clock < (c.deleteVersion l stamp).clock :=
  lt_of_le_of_lt (le_coverOf hv) (Clock.lt_increment hroom)

/-- Once a deletion has succeeded, a cluster in which one of the replicas is up that took
part in it answers with versions none of which is at or below a version that they held. -/
theorem deletion_lasts {c : Cluster} {l : Location} {q : Quorum} {stamp : Stamp}
    (hdelete : (c.delete l q stamp).result = .ok ())
    (hroom : (coverOf (c.held l)).Room c.node.toHex) {ds : List Deed} {c' : Cluster}
    (hc' : c' = c.after (.delete l q stamp :: ds)) {i : Nat} (hpart : c.isUp i = true)
    (hup : c'.isUp i = true) :
    (∀ q' reply, (c'.get l q').result = .ok reply →
      (∃ vs, reply = replyOf vs ∧
        ∀ w ∈ vs, w ∈ c'.held l ∧ ∀ v ∈ c.held l, ¬w.clock ≤ v.clock) ∧
      ∀ v ∈ c.held l, c.OwnsTag v (.delete l q stamp :: ds) →
        ⟨v.value, v.time, v.tag⟩ ∉ reply.versions) ∧
    ∀ names, (c'.listKeys l.bucket).result = .ok names → l.key ∈ names →
      ∃ w ∈ c'.held l, w.tombstone = false ∧ ∀ v ∈ c.held l, ¬w.clock ≤ v.clock := by
  have hreach : Reach (c'.held l) (c.deleteVersion l stamp).clock := by
    have hwritten : (c.apply (.delete l q stamp)).ReachesAt i l (c.deleteVersion l stamp).clock := by
      rw [apply, (delete_ok hdelete).2.2]
      exact reachesAt_write hpart _
    rw [hc', after_cons] at hup ⊢
    exact (hwritten.after ds).held hup
  -- the tombstone, or something above it, is held, and reconciling drops what is below
  have hbelow : ∀ w ∈ reconcile (c'.held l), ∀ v ∈ c.held l, ¬w.clock ≤ v.clock :=
    fun w hw v hv => not_le_of_mem_reconcile hreach (lt_deleteVersion hroom hv) hw
  constructor
  · intro q' reply hget
    obtain rfl := (get_ok hget).2.2.1
    refine ⟨⟨_, rfl, fun w hw => ⟨mem_of_mem_reconcile hw, hbelow w hw⟩⟩, ?_⟩
    intro v hv howns hmem
    obtain ⟨w, hw, hraw⟩ := List.mem_map.1 hmem
    have hw := (List.mem_filter.1 hw).1
    have htag : w.tag = v.tag := congrArg RawVersion.tag hraw
    have hholds : c'.Holds w := holds_of_mem_held (mem_of_mem_reconcile hw)
    rw [hc'] at hholds
    have heq : w = v := howns.after.1 w hholds htag
    exact hbelow w hw v hv (heq ▸ le_rfl)
  · intro names hnames hkey
    rw [listKeys_ok hnames, List.mem_filter, List.any_eq_true] at hkey
    obtain ⟨-, w, hw, htomb⟩ := hkey
    exact ⟨w, mem_of_mem_reconcile hw, by simpa using htomb, hbelow w hw⟩

/-- A write that replica 0 keeps while it is deleted behind its back. -/
def keptBehindBack : List Deed :=
  [.put ⟨⟨"b", "k"⟩, [1], [], default, .majority, false⟩ ⟨"first", 0⟩, .setUp 0 false]

/-- The deletion, after which replica 0 comes back and hands out what it kept. -/
def deletedBehindBack : List Deed :=
  [.setUp 0 true, .setUp 1 false, .get ⟨"b", "k"⟩ .one, .setUp 1 true]

theorem deletion_lasts_behindBack :
    let c := (empty {} default).after keptBehindBack
    let c' := c.after (.delete ⟨"b", "k"⟩ .majority ⟨"second", 1⟩ :: deletedBehindBack)
    ∃ v reply, v ∈ c.held ⟨"b", "k"⟩ ∧ (c'.get ⟨"b", "k"⟩ .all).result = .ok reply ∧
      ⟨v.value, v.time, v.tag⟩ ∉ reply.versions := by
  intro c c'
  obtain ⟨⟨⟩, hdelete⟩ := exists_of_isOk (x := (c.delete ⟨"b", "k"⟩ .majority ⟨"second", 1⟩).result)
    (by decide +kernel)
  obtain ⟨reply, hreply⟩ := exists_of_isOk (x := (c'.get ⟨"b", "k"⟩ .all).result)
    (by decide +kernel)
  have hroom : (coverOf (c.held ⟨"b", "k"⟩)).Room c.node.toHex := by
    unfold Clock.Room
    decide +kernel
  have hpart : c.isUp 2 = true ∧ c'.isUp 2 = true := by decide +kernel
  have hheld : ∃ v ∈ c.held ⟨"b", "k"⟩, v.tag = "first" ∧
      ∀ r ∈ c.replicas, ∀ w ∈ r.store.table.records, w.tag = v.tag → w = v := by
    decide +kernel
  obtain ⟨v, hv, htag, halone⟩ := hheld
  have howns : c.OwnsTag v (.delete ⟨"b", "k"⟩ .majority ⟨"second", 1⟩ :: deletedBehindBack) := by
    refine ⟨fun w ⟨r, hr, hw⟩ => halone r hr w (List.mem_filter.1 hw).1, ?_⟩
    rw [htag]
    decide
  exact ⟨v, reply, hv, hreply,
    ((deletion_lasts hdelete hroom rfl hpart.1 hpart.2).1 _ reply hreply).2 v hv howns⟩

end Cluster

end SiblingStore
