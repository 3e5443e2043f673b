import SiblingStore.Proofs.Cluster.Listing
import SiblingStore.Proofs.Cluster.Settled

/-!
# Requests that come one after another

On a cluster that stands for a map, a request that asks a majority does what it
does to the map: a read finds the value, a write on top of what was read sets it, a
deletion removes it, and a listing tells the keys that have one.
-/

namespace SiblingStore.Cluster

def Covers (c : Cluster) (l : Location) (bs : Bytes) : Prop :=
  ∃ context, Clock.ofBytes bs = .ok context ∧ (∀ actor, context.Room actor) ∧
    ∀ v, c.Holds v → v.location = l → v.clock ≤ context

theorem Reflects.get {c : Cluster} {m : Location → Option Bytes} {l : Location} {q : Quorum}
    {reply : FetchReply} (h : c.Reflects m) (hunspent : c.Unspent) (hq : c.ReadsMost q)
    (hreply : (c.get l q).result = .ok reply) :
    reply.versions.map (·.value) = (m l).toList ∧
      (c.get l q).cluster.Reflects m ∧ (c.get l q).cluster.Unspent ∧
      (c.get l q).cluster.Covers l reply.context := by
  obtain ⟨hlive, -, rfl, hcluster⟩ := get_ok hreply
  have hup : c.Most (·.up = true) := most_up hq hlive
  have hgrows := grows_readOut c l
  rw [hcluster]
  refine ⟨h.replyOf hup l, h.grows hgrows, hunspent.grows hgrows, ?_⟩
  refine ⟨_, ofBytes_context _, fun actor => ?_, fun v hv hl => ?_⟩
  · exact hunspent.room_coverOf
      (fun v hv => holds_of_mem_held (mem_of_mem_reconcile hv)) actor
  · rcases hgrows.holds hv with hv | hv
    · exact h.clock_le_coverOf hup hv hl
    · exact absurd hv (by simp)

theorem Reflects.put {c : Cluster} {m : Location → Option Bytes} {r : PutRequest}
    {stamp : Stamp} {reply : PutReply} (h : c.Reflects m) (hunspent : c.Unspent)
    (hq : c.WritesMost r.quorum) (hcovers : c.Covers r.location r.context)
    (hreply : (c.put r stamp).result = .ok reply) :
    (∀ body, reply.body = some body → body.versions.map (·.value) = [r.value]) ∧
      (c.put r stamp).cluster.Reflects (update m r.location (some r.value)) := by
  obtain ⟨context, hcontext, hlive, -, hbody, hcluster⟩ := put_ok hreply
  obtain ⟨context', hcontext', hroom, habove⟩ := hcovers
  rw [hcontext] at hcontext'
  injection hcontext' with hcontext'
  subst hcontext'
  have hup : c.Most (·.up = true) := most_up hq hlive
  have hwrite : (c.write (c.putVersion r context stamp)).Reflects
      (update m r.location (some r.value)) := by
    refine h.write hup fun e he hl => ?_
    exact lt_of_le_of_lt (habove e he hl)
      (context_lt_writeClock (hunspent.room_writeBase (hroom _)))
  constructor
  · intro body hsome
    rw [hsome] at hbody
    split_ifs at hbody
    rw [Option.some_inj.1 hbody, hwrite.replyOf (most_up_write _ hup), update, if_pos rfl]
    rfl
  · rw [hcluster]
    split_ifs
    · exact hwrite.grows (grows_readOut _ r.location)
    · exact hwrite

theorem Reflects.delete {c : Cluster} {m : Location → Option Bytes} {l : Location} {q : Quorum}
    {stamp : Stamp} (h : c.Reflects m) (hunspent : c.Unspent) (hq : c.WritesMost q)
    (hreply : (c.delete l q stamp).result = .ok ()) :
    (c.delete l q stamp).cluster.Reflects (update m l none) := by
  obtain ⟨hlive, -, hcluster⟩ := delete_ok hreply
  have hup : c.Most (·.up = true) := most_up hq hlive
  rw [hcluster]
  refine h.write (v := c.deleteVersion l stamp) hup fun e he hl => ?_
  have hle : e.clock ≤ coverOf (c.held l) := by
    refine (h.clock_le_coverOf hup he hl).trans (coverOf_le fun v hv => ?_)
    exact le_coverOf (mem_of_mem_reconcile hv)
  have hroom : (coverOf (c.held l)).Room c.node.toHex :=
    hunspent.room_coverOf (fun v hv => holds_of_mem_held hv) _
  exact lt_of_le_of_lt hle (Clock.lt_increment hroom)

/-! ## Listings -/

theorem Reflects.listKeys {c : Cluster} {m : Location → Option Bytes} {bucket : String}
    {names : List String} (h : c.Reflects m) (hup : c.Most (·.up = true))
    (hreply : (c.listKeys bucket).result = .ok names) :
    (∀ key, key ∈ names ↔ (m ⟨bucket, key⟩).isSome = true) ∧
      names.Pairwise fun a b => Text.Utf8.encode a < Text.Utf8.encode b := by
  refine ⟨fun key => ?_, pairwise_of_listKeys hreply⟩
  rw [mem_of_listKeys_iff hreply]
  obtain ⟨top, htop, hm⟩ := h ⟨bucket, key⟩
  rw [htop.reconcile_held hup, hm]
  cases top with
  | none => simp [valueOf]
  | some top => cases htomb : top.tombstone <;> simp [valueOf, Option.filter, htomb]

end SiblingStore.Cluster
