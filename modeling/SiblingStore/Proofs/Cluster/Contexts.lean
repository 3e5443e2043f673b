import SiblingStore.Proofs.Cluster.Requests

/-!
# Causal contexts between reads and writes

A read hands out the least clock that covers what it found, as bytes, and a write takes it
in again. The bytes of a clock are read as that clock and no other; any other bytes that can
be read at all make the same write as the bytes of the clock they are read as.
-/

namespace SiblingStore.Cluster

variable {c : Cluster}

/-- A write sees nothing of its context but the clock. -/
theorem put_congr_context {r : PutRequest} {stamp : Stamp} {bs bs' : Bytes} {clock : Clock}
    (h : Clock.ofBytes bs = .ok clock) (h' : Clock.ofBytes bs' = .ok clock) :
    c.put { r with context := bs } stamp = c.put { r with context := bs' } stamp := by
  simp only [put, h, h']

/-- Every clock is read back from its bytes, and only the clock without entries is no bytes.
Bytes that are read as a clock may be written anew without a write on top of them coming out
otherwise. The context of a read is the bytes of the least clock that covers all that the
live replicas held, and the clock of a write on top of it builds on that clock. -/
theorem contexts_survive :
    (∀ clock : Clock, Clock.ofBytes clock.toBytes = .ok clock ∧
      (clock.toBytes = [] ↔ clock = .empty)) ∧
    (∀ (bs : Bytes) (clock : Clock), Clock.ofBytes bs = .ok clock →
      Clock.ofBytes clock.toBytes = .ok clock ∧
      ∀ (c : Cluster) (r : PutRequest) (stamp : Stamp),
        c.put { r with context := clock.toBytes } stamp =
          c.put { r with context := bs } stamp) ∧
    ∀ (c : Cluster) (l : Location) (q : Quorum) (got : FetchReply),
      (c.get l q).result = .ok got →
      ∃ clock, Clock.ofBytes got.context = .ok clock ∧ got.context = clock.toBytes ∧
        (∀ d, clock ≤ d ↔ ∀ v ∈ c.held l, v.clock ≤ d) ∧
        ∀ (c' : Cluster) (r : PutRequest) (stamp : Stamp) (reply : PutReply),
          r.context = got.context → (c'.put r stamp).result = .ok reply →
          ∃ v, v = Version.live r.location r.value
              (writeClock r.writer.toHex clock (c'.held r.location)) stamp ∧
            (c'.put r stamp).cluster =
              if r.returnBody = true then ((c'.write v).read r.location).2.1 else c'.write v := by
  refine ⟨fun clock => ⟨Clock.ofBytes_toBytes clock, Clock.toBytes_eq_nil_iff⟩, ?_, ?_⟩
  · intro bs clock hclock
    have hback : Clock.ofBytes clock.toBytes = .ok clock := Clock.ofBytes_toBytes clock
    exact ⟨hback, fun c r stamp => put_congr_context hback hclock⟩
  · intro c l q got hget
    obtain ⟨-, -, rfl, -⟩ := get_ok hget
    refine ⟨_, ofBytes_context _, rfl, fun d => coverOf_reconcile_le_iff, ?_⟩
    intro c' r stamp reply hbase hput
    refine ⟨_, rfl, ?_⟩
    rw [cluster_of_put hput (hbase ▸ ofBytes_context _), (read_eq _ r.location).2]
    rfl

/-- A clock as the list of its one field, with spaces, an escape and a writer named twice. -/
def listForm : Bytes :=
  Json.Writer.ascii " [ \x7b\"a\": 1, \"\\u0062\":0,\"a\" :18446744073709551615\x7d ]\n"

def following (context : Bytes) : PutRequest :=
  ⟨⟨"b", "k"⟩, [0], context, default, .all, false⟩

theorem contexts_survive_listForm :
    let clock := Clock.ofList [("a", 18446744073709551615), ("b", 0)]
    let c := ((empty {} default).put (following listForm) ⟨"first", 0⟩).cluster
    (Clock.ofBytes listForm = .ok clock ∧ clock.toBytes ≠ listForm ∧
      Clock.ofBytes clock.toBytes = .ok clock) ∧
    ∃ got reply v, (c.get ⟨"b", "k"⟩ .all).result = .ok got ∧
      (c.put (following got.context) ⟨"second", 1⟩).result = .ok reply ∧
      (c.put (following got.context) ⟨"second", 1⟩).cluster = c.write v := by
  intro clock c
  have hread : Clock.ofBytes listForm = .ok clock := by
    obtain ⟨found, hfound⟩ := exists_of_isOk (x := Clock.ofBytes listForm) (by decide +kernel)
    have hclock : (Clock.ofBytes listForm).toOption = some clock := by decide +kernel
    rw [hfound] at hclock ⊢
    exact congrArg Except.ok (Option.some.inj hclock)
  obtain ⟨got, hget⟩ := exists_of_isOk (x := (c.get ⟨"b", "k"⟩ .all).result) (by decide +kernel)
  have hgot : got = replyOf (reconcile (c.held ⟨"b", "k"⟩)) := (get_ok hget).2.2.1
  obtain ⟨reply, hput⟩ := exists_of_isOk
    (x := (c.put (following got.context) ⟨"second", 1⟩).result) (by rw [hgot]; decide +kernel)
  obtain ⟨-, hrewritten, hbuilds⟩ := contexts_survive
  obtain ⟨_, -, -, -, hafter⟩ := hbuilds c _ _ got hget
  obtain ⟨v, -, hcluster⟩ := hafter c (following got.context) ⟨"second", 1⟩ reply rfl hput
  exact ⟨⟨hread, by decide +kernel, (hrewritten listForm clock hread).1⟩,
    got, reply, v, hget, hput, hcluster⟩

end SiblingStore.Cluster
