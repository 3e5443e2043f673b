import SiblingStore.Proofs.Cluster.Answers
import SiblingStore.Proofs.Cluster.Run
import SiblingStore.Proofs.Cluster.Whole
import SiblingStore.Proofs.Ordered.Set
import SiblingStore.Proofs.Text.Order

/-!
# Listings

A listing names the keys of a bucket at which a read finds a version, in the order of
their octets. It takes its candidates from what each live replica shows, and no key is
lost by that: a version that a read finds is one that some replica shows.
-/

namespace SiblingStore.Cluster

/-! ## What is listed -/

theorem mem_candidates_iff {c : Cluster} {bucket key : String} :
    key ∈ (c.candidates bucket).toList ↔
      ∃ r ∈ c.replicas, r.up = true ∧ ∃ v ∈ r.store.versions ⟨bucket, key⟩,
        v.tombstone = false := by
  rw [candidates, Ordered.Set.mem_toList_ofList]
  simp only [Table.keys, List.mem_flatMap, List.mem_filter, List.mem_eraseDups, List.mem_map,
    Bool.and_eq_true, decide_eq_true_eq, Bool.not_eq_true', Store.versions, Table.versions]
  constructor
  · rintro ⟨r, ⟨hr, hup⟩, v, ⟨hv, hbucket, htomb⟩, hkey⟩
    refine ⟨r, hr, hup, v, ⟨hv, ?_⟩, htomb⟩
    rw [← hbucket, ← hkey]
  · rintro ⟨r, hr, hup, v, ⟨hv, hl⟩, htomb⟩
    exact ⟨r, ⟨hr, hup⟩, v, ⟨hv, by rw [hl], htomb⟩, by rw [hl]⟩

theorem mem_of_listKeys_iff {c : Cluster} {bucket : String} {names : List String}
    (h : (c.listKeys bucket).result = .ok names) {key : String} :
    key ∈ names ↔ ∃ v ∈ reconcile (c.held ⟨bucket, key⟩), v.tombstone = false := by
  rw [listKeys_ok h, List.mem_filter, List.any_eq_true]
  simp only [Bool.not_eq_true']
  refine ⟨And.right, fun hfound => ⟨?_, hfound⟩⟩
  obtain ⟨v, hv, hliving⟩ := hfound
  obtain ⟨r, hr, hup, hmem⟩ := mem_held_iff.1 (mem_of_mem_reconcile hv)
  exact mem_candidates_iff.2 ⟨r, hr, hup, v, hmem, hliving⟩

theorem pairwise_of_listKeys {c : Cluster} {bucket : String} {names : List String}
    (h : (c.listKeys bucket).result = .ok names) :
    names.Pairwise fun a b => Text.Utf8.encode a < Text.Utf8.encode b := by
  rw [listKeys_ok h]
  refine (List.Pairwise.filter _ (c.candidates bucket).sorted).imp fun hlt => ?_
  exact Text.Utf8.encode_lt_of_compare hlt

theorem exists_listKeys_ok {c : Cluster} {bucket : String} (hbucket : bucket ≠ "")
    (hlive : 0 < c.liveCount) : ∃ names, (c.listKeys bucket).result = .ok names := by
  unfold listKeys
  rw [if_neg (by simpa using hbucket), if_neg (by omega)]
  exact ⟨_, rfl⟩

/-! ## What is read -/

theorem versions_replyOf_ne_nil_iff {vs : List Version} :
    (replyOf vs).versions ≠ [] ↔ ∃ v ∈ vs, v.tombstone = false := by
  simp [replyOf]

theorem meetsRead_one {c : Cluster} (hlive : 0 < c.liveCount) : c.MeetsRead .one := by
  have hsize : c.liveCount ≤ c.size := List.countP_le_length
  have hmet : c.checkQuorum .one c.settings.readQuorum = .ok 1 := by
    unfold checkQuorum Quorum.required
    dsimp only
    rw [if_neg (by omega), if_neg (by omega)]
  rw [MeetsRead, hmet]
  rfl

/-! ## Named locations -/

theorem named_of_checkLocation {l : Location} (h : checkLocation l = .ok ()) : l.Named := by
  unfold checkLocation at h
  split_ifs at h with hbucket hkey
  exact ⟨by simpa using hbucket, by simpa using hkey⟩

theorem named_of_version? {c : Cluster} {d : Deed} {v : Version} (h : c.version? d = some v) :
    v.location.Named := by
  cases d with
  | get l q => exact absurd h (by simp [version?])
  | put r stamp =>
      obtain ⟨context, reply, -, hreply, rfl⟩ := version?_put h
      exact named_of_checkLocation (checks_of_put hreply).1
  | delete l q stamp =>
      obtain ⟨hreply, rfl⟩ := version?_delete h
      exact named_of_checkLocation (checks_of_delete hreply).1
  | setUp i up => exact absurd h (by simp [version?])

/-- Nothing is ever written to a location that has no name. -/
theorem named_of_holds {settings : ClusterSettings} {node : ClientId} {ds : List Deed}
    {v : Version} (h : ((empty settings node).after ds).Holds v) : v.location.Named := by
  -- by induction on the deeds, from any cluster that holds named locations only
  suffices hrun : ∀ c : Cluster, (∀ w, c.Holds w → w.location.Named) →
      ∀ w, (c.after ds).Holds w → w.location.Named by
    refine hrun _ (fun w hw => ?_) v h
    obtain ⟨r, hr, hmem⟩ := hw
    rw [(List.mem_replicate.1 hr).2] at hmem
    exact absurd hmem List.not_mem_nil
  clear h
  induction ds with
  | nil => exact fun c hc => hc
  | cons d ds ih =>
      intro c hc
      refine ih (c.apply d) fun w hw => ?_
      rcases (grows_apply c d).holds hw with hold | hnew
      · exact hc w hold
      · exact named_of_version? hnew

/-! ## The result -/

/-- With a replica up, every bucket that has a name is listed. The keys come in the order of
their octets, and they are those at which a read that is met finds versions, whatever its
quorum. In a cluster that started empty each of them can be read. -/
theorem listKeys_agrees_with_get {c : Cluster} {bucket : String} (hbucket : bucket ≠ "")
    (hlive : 0 < c.liveCount) :
    ∃ names, (c.listKeys bucket).result = .ok names ∧
      (names.Pairwise fun a b => Text.Utf8.encode a < Text.Utf8.encode b) ∧
      (∀ key q reply, (c.get ⟨bucket, key⟩ q).result = .ok reply →
        (key ∈ names ↔ reply.versions ≠ [])) ∧
      ∀ settings node ds, c = (empty settings node).after ds →
        ∀ key ∈ names, ∃ reply, (c.get ⟨bucket, key⟩ .one).result = .ok reply := by
  obtain ⟨names, hnames⟩ := exists_listKeys_ok hbucket hlive
  refine ⟨names, hnames, pairwise_of_listKeys hnames, ?_, ?_⟩
  · intro key q reply hreply
    rw [(get_ok hreply).2.2.1, mem_of_listKeys_iff hnames, versions_replyOf_ne_nil_iff]
  · intro settings node ds hrun key hkey
    obtain ⟨v, hv, -⟩ := (mem_of_listKeys_iff hnames).1 hkey
    have hheld := mem_of_mem_reconcile hv
    have hnamed : v.location.Named := named_of_holds (hrun ▸ holds_of_mem_held hheld)
    rw [location_of_mem_held hheld] at hnamed
    exact exists_get_ok (checkLocation_of_named hnamed) (meetsRead_one hlive)

/-- Two keys that are written, of which replica 2 misses that one is deleted. -/
def halfDeleted : List Deed :=
  [.put ⟨⟨"b", "m"⟩, [0], [], default, .all, false⟩ ⟨"first", 0⟩,
    .put ⟨⟨"b", "k"⟩, [1], [], default, .all, false⟩ ⟨"second", 1⟩, .setUp 2 false,
    .delete ⟨"b", "k"⟩ .majority ⟨"third", 2⟩, .setUp 2 true]

theorem listKeys_agrees_with_get_halfDeleted :
    let c := (empty {} default).after halfDeleted
    ∃ names, (c.listKeys "b").result = .ok names ∧ "k" ∉ names ∧ "m" ∈ names ∧
      ∃ reply, (c.get ⟨"b", "m"⟩ .one).result = .ok reply := by
  intro c
  have hbucket : "b" ≠ "" := by decide
  obtain ⟨names, hnames, -, hiff, hread⟩ :=
    listKeys_agrees_with_get (c := c) hbucket (by decide +kernel)
  obtain ⟨buried, hburied⟩ :=
    exists_of_isOk (x := (c.get ⟨"b", "k"⟩ .all).result) (by decide +kernel)
  obtain ⟨kept, hkept⟩ :=
    exists_of_isOk (x := (c.get ⟨"b", "m"⟩ .all).result) (by decide +kernel)
  have hlisted : "m" ∈ names := by
    rw [hiff "m" .all kept hkept, (get_ok hkept).2.2.1]
    decide +kernel
  refine ⟨names, hnames, ?_, hlisted, hread {} default halfDeleted rfl "m" hlisted⟩
  rw [hiff "k" .all buried hburied, (get_ok hburied).2.2.1]
  decide +kernel

end SiblingStore.Cluster
