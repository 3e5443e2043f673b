import SiblingStore.Proofs.Cluster.Majority
import SiblingStore.Proofs.Text.Hex

/-!
# Acknowledged writes

Every step of a run asks more than half of the replicas, and writes build on
nothing or on what a read told. Then a write that was acknowledged is known to
every later read, and it is there until a deletion, its own writer or a write
that builds on it replaces it.
-/

namespace SiblingStore

open Version (Reach)

namespace Cluster

/-! ## Careful runs -/

def IsMajority (c : Cluster) : Deed → Prop
  | .get _ q => c.ReadsMost q
  | .put r _ => c.WritesMost r.quorum
  | .delete _ q _ => c.WritesMost q
  | .setUp .. => True

def HasRoom (c : Cluster) : Deed → Prop
  | .put r _ => ∀ context, Clock.ofBytes r.context = .ok context →
      (writeBase r.writer.toHex context (c.held r.location)).Room r.writer.toHex
  | .delete l _ _ => (coverOf (c.held l)).Room c.node.toHex
  | .get .. | .setUp .. => True

/-- The contexts that a step tells, each with its location. -/
def told (c : Cluster) : Deed → List (Location × Bytes)
  | .get l q =>
    match (c.get l q).result with
    | .ok reply => [(l, reply.context)]
    | .error _ => []
  | .put r stamp =>
    match (c.put r stamp).result with
    | .ok ⟨_, some body⟩ => [(r.location, body.context)]
    | _ => []
  | .delete .. | .setUp .. => []

end Cluster

def Deed.IsBased (known : List (Location × Bytes)) : Deed → Prop
  | .put r _ => r.context = [] ∨ (r.location, r.context) ∈ known
  | .get .. | .delete .. | .setUp .. => True

namespace Cluster

/-- Whether all steps of a run ask majorities, have room to count, and build on contexts
that are known at the start or told on the way. -/
def IsCareful (c : Cluster) (known : List (Location × Bytes)) : List Deed → Prop
  | [] => True
  | d :: ds => c.IsMajority d ∧ c.HasRoom d ∧ d.IsBased known ∧
      (c.apply d).IsCareful (known ++ c.told d) ds

def toldBy (c : Cluster) : List Deed → List (Location × Bytes)
  | [] => []
  | d :: ds => c.told d ++ (c.apply d).toldBy ds

theorem isCareful_append {c : Cluster} {known : List (Location × Bytes)} {ds es : List Deed} :
    c.IsCareful known (ds ++ es) ↔
      c.IsCareful known ds ∧ (c.after ds).IsCareful (known ++ c.toldBy ds) es := by
  induction ds generalizing c known with
  | nil => simp [IsCareful, toldBy]
  | cons d ds ih => simp [IsCareful, toldBy, ih, and_assoc]

/-! ## One step -/

theorem most_up_of_version? {c : Cluster} {d : Deed} {v : Version} (hd : c.IsMajority d)
    (h : c.version? d = some v) : c.Most (·.up = true) := by
  cases d with
  | get l q => exact absurd h (by simp [version?])
  | put r stamp =>
      obtain ⟨context, reply, -, hreply, -⟩ := version?_put h
      obtain ⟨-, -, hlive, -⟩ := put_ok hreply
      exact most_up hd hlive
  | delete l q stamp => exact most_up hd (delete_ok (version?_delete h).1).1
  | setUp i up => exact absurd h (by simp [version?])

theorem grows_apply_of_version? {c : Cluster} {d : Deed} {v : Version}
    (h : c.version? d = some v) : (c.write v).Grows none (c.apply d) := by
  cases d with
  | get l q => exact absurd h (by simp [version?])
  | put r stamp =>
      obtain ⟨context, reply, hcontext, hreply, rfl⟩ := version?_put h
      change Grows _ none (c.put r stamp).cluster
      rw [cluster_of_put hreply hcontext]
      split_ifs
      · exact grows_readOut _ r.location
      · exact Grows.refl ..
  | delete l q stamp =>
      obtain ⟨hreply, rfl⟩ := version?_delete h
      change Grows _ none (c.delete l q stamp).cluster
      rw [(delete_ok hreply).2.2]
      exact Grows.refl ..
  | setUp i up => exact absurd h (by simp [version?])

theorem most_reach_apply {c : Cluster} {d : Deed} {v : Version} (hd : c.IsMajority d)
    (h : c.version? d = some v) :
    (c.apply d).Most fun r => Reach (r.store.versions v.location) v.clock :=
  (most_reach_write v (most_up_of_version? hd h)).reach (grows_apply_of_version? h)

/-- A context is told of what a majority holds once the version of the step is written. -/
theorem exists_of_mem_told {c : Cluster} {d : Deed} {l : Location} {bs : Bytes}
    (hd : c.IsMajority d) (h : (l, bs) ∈ c.told d) :
    ∃ c₁ : Cluster, c.Grows (c.version? d) c₁ ∧ c₁.Most (·.up = true) ∧
      Clock.ofBytes bs = .ok (coverOf (reconcile (c₁.held l))) ∧
      ∀ v, c.version? d = some v →
        c₁.Most fun r => Reach (r.store.versions v.location) v.clock := by
  cases d with
  | get l' q =>
      rw [told] at h
      split at h
      · rename_i reply hreply
        obtain ⟨hlive, -, rfl, -⟩ := get_ok hreply
        obtain ⟨rfl, rfl⟩ := Prod.mk.inj (List.mem_singleton.1 h)
        exact ⟨c, Grows.refl .., most_up hd hlive, ofBytes_context _,
          fun v hv => absurd hv (by simp [version?])⟩
      · exact absurd h List.not_mem_nil
  | put r stamp =>
      rw [told] at h
      split at h
      · rename_i conflict body hreply
        obtain ⟨context, hcontext, hlive, -, hbody, -⟩ := put_ok hreply
        obtain ⟨rfl, rfl⟩ := Prod.mk.inj (List.mem_singleton.1 h)
        have hversion : c.version? (.put r stamp) = some (c.putVersion r context stamp) := by
          simp only [version?, hreply, hcontext]
        have hup : c.Most (·.up = true) := most_up hd hlive
        have hbody' : body = replyOf (reconcile
            ((c.write (c.putVersion r context stamp)).held r.location)) := by
          split_ifs at hbody
          exact Option.some_inj.1 hbody
        rw [hversion, hbody']
        refine ⟨_, grows_write c _, most_up_write _ hup, ofBytes_context _, fun v hv => ?_⟩
        obtain rfl := Option.some_inj.1 hv
        exact most_reach_write _ hup
      · exact absurd h List.not_mem_nil
  | delete l' q stamp => exact absurd h List.not_mem_nil
  | setUp i up => exact absurd h List.not_mem_nil

/-! ## What is held is reached by most -/

/-- Whether most replicas reach all that any replica holds of a location, and every
counter of the contexts that are known of it. -/
structure IsBacked (c : Cluster) (known : List (Location × Bytes)) (l : Location) : Prop where
  versions : ∀ v, c.Holds v → v.location = l →
    c.Most fun r => Reach (r.store.versions l) v.clock
  contexts : ∀ bs, (l, bs) ∈ known → ∃ context, Clock.ofBytes bs = .ok context ∧
    ∀ actor, context.get actor = 0 ∨
      c.Most fun r => ∃ v ∈ r.store.versions l, context.get actor ≤ v.clock.get actor

theorem isBacked_empty (settings : ClusterSettings) (node : ClientId) (l : Location) :
    (empty settings node).IsBacked [] l where
  versions v hv _ := by
    obtain ⟨r, hr, hmem⟩ := hv
    rw [(List.mem_replicate.1 hr).2] at hmem
    exact absurd hmem List.not_mem_nil
  contexts bs hbs := absurd hbs List.not_mem_nil

theorem most_reach_of_grows {c c₁ : Cluster} {known : List (Location × Bytes)} {d : Deed}
    {l : Location} (h : c.IsBacked known l) (hd : c.IsMajority d)
    (hgrows : c.Grows (c.version? d) c₁) {v : Version} (hv : c₁.Holds v)
    (hl : v.location = l) :
    (c.apply d).Most fun r => Reach (r.store.versions l) v.clock := by
  rcases hgrows.holds hv with hheld | hfresh
  · exact (h.versions v hheld hl).reach (grows_apply c d)
  · rw [← hl]
    exact most_reach_apply hd hfresh

theorem IsBacked.apply {c : Cluster} {known : List (Location × Bytes)} {d : Deed}
    {l : Location} (h : c.IsBacked known l) (hd : c.IsMajority d) :
    (c.apply d).IsBacked (known ++ c.told d) l where
  versions v hv hl := most_reach_of_grows h hd (grows_apply c d) hv hl
  contexts bs hbs := by
    rcases List.mem_append.1 hbs with hold | hnew
    · obtain ⟨context, hcontext, hcounters⟩ := h.contexts bs hold
      refine ⟨context, hcontext, fun actor => (hcounters actor).imp_right fun hmost => ?_⟩
      refine hmost.grows (grows_apply c d) fun r r' htakes hr => ?_
      refine htakes.versions
        (P := fun vs => ∃ v ∈ vs, context.get actor ≤ v.clock.get actor) ?_ hr
      rintro vs v - - ⟨w, hw, hle⟩
      obtain ⟨e, he, hwe⟩ := Reach.settle ⟨w, hw, le_rfl⟩ v
      exact ⟨e, he, UInt64.le_trans hle (hwe actor)⟩
    · obtain ⟨c₁, hgrows, -, hcontext, -⟩ := exists_of_mem_told hd hnew
      refine ⟨_, hcontext, fun actor => ?_⟩
      rcases get_coverOf (reconcile (c₁.held l)) actor with hzero | ⟨v, hv, heq⟩
      · exact .inl hzero
      · have hheld := mem_of_mem_reconcile hv
        refine .inr ((most_reach_of_grows h hd hgrows (holds_of_mem_held hheld)
          (location_of_mem_held hheld)).imp fun r _ hr => ?_)
        obtain ⟨e, he, hle⟩ := hr
        exact ⟨e, he, heq ▸ hle actor⟩

theorem IsBacked.after {c : Cluster} {known : List (Location × Bytes)} {ds : List Deed}
    {l : Location} (h : c.IsBacked known l) (hds : c.IsCareful known ds) :
    (c.after ds).IsBacked (known ++ c.toldBy ds) l := by
  induction ds generalizing c known with
  | nil => simpa [toldBy] using h
  | cons d ds ih =>
      have hstep := ih (h.apply hds.1) hds.2.2.2
      rwa [List.append_assoc] at hstep

/-! ## An acknowledged write -/

/-- What becomes of a write: most reach it and most hold it, all other versions and
all contexts that do not know of it are below it in the counter of its writer. -/
structure Keeps (c : Cluster) (known : List (Location × Bytes)) (a : Version)
    (actor : String) : Prop where
  reach : c.Most fun r => Reach (r.store.versions a.location) a.clock
  holds : c.Most fun r => a ∈ r.store.versions a.location
  versions : ∀ v, c.Holds v → v.location = a.location →
    v = a ∨ (v.clock.get actor).toNat < (a.clock.get actor).toNat
  contexts : ∀ bs, (a.location, bs) ∈ known → ∃ context, Clock.ofBytes bs = .ok context ∧
    ((context.get actor).toNat < (a.clock.get actor).toNat ∨ a.clock ≤ context)

/-- A majority tells a context that is at or above all that most reach. -/
theorem le_context_of_mem_told {c : Cluster} {d : Deed} {l : Location} {bs : Bytes} {k : Clock}
    (hd : c.IsMajority d) (h : (l, bs) ∈ c.told d)
    (hk : (c.Most fun r => Reach (r.store.versions l) k) ∨
      ∃ v, c.version? d = some v ∧ v.location = l ∧ v.clock = k) :
    ∃ context, Clock.ofBytes bs = .ok context ∧ k ≤ context := by
  obtain ⟨c₁, hgrows, hup, hcontext, hfresh⟩ := exists_of_mem_told hd h
  refine ⟨_, hcontext, le_coverOf_reconcile (Most.exists_held ?_ hup)⟩
  rcases hk with hmost | ⟨v, hv, rfl, rfl⟩
  · exact hmost.reach hgrows
  · exact hfresh v hv

theorem mem_versions_of_takes {c : Cluster} {fresh : Option Version} {r r' : Replica}
    {a : Version} (h : c.Takes fresh r r')
    (hbelow : ∀ v, (c.Holds v ∨ fresh = some v) → v.location = a.location →
      a.clock ≤ v.clock → a = v)
    (ha : a ∈ r.store.versions a.location) : a ∈ r'.store.versions a.location :=
  h.versions (P := fun vs => a ∈ vs)
    (fun _ v hv hl ha => Version.mem_settle_of_mem ha (hbelow v hv hl)) ha

/-- The counter of the writer goes past all versions and contexts of its location. -/
theorem IsBacked.get_lt_of_put {c : Cluster} {known : List (Location × Bytes)}
    {r : PutRequest} {stamp : Stamp} {a : Version} (h : c.IsBacked known r.location)
    (hd : c.IsMajority (.put r stamp)) (hroom : c.HasRoom (.put r stamp))
    (ha : c.version? (.put r stamp) = some a) :
    (∀ v, c.Holds v → v.location = r.location →
      (v.clock.get r.writer.toHex).toNat < (a.clock.get r.writer.toHex).toNat) ∧
    ∀ bs, (r.location, bs) ∈ known → ∃ context, Clock.ofBytes bs = .ok context ∧
      (context.get r.writer.toHex).toNat < (a.clock.get r.writer.toHex).toNat := by
  have hup := most_up_of_version? hd ha
  obtain ⟨base, reply, hbase, -, rfl⟩ := version?_put ha
  have hlt : ∀ n : UInt64, n ≤ base.get r.writer.toHex ∨
      (∃ v ∈ c.held r.location, n ≤ v.clock.get r.writer.toHex) →
      n.toNat < ((c.putVersion r base stamp).clock.get r.writer.toHex).toNat :=
    fun n hn => get_lt_writeClock (hroom base hbase) hn
  constructor
  · intro v hv hl
    obtain ⟨w, hw, hle⟩ := (h.versions v hv hl).exists_held hup
    exact hlt _ (.inr ⟨w, hw, hle _⟩)
  · intro bs hbs
    obtain ⟨context, hcontext, hcounters⟩ := h.contexts bs hbs
    refine ⟨context, hcontext, ?_⟩
    rcases hcounters r.writer.toHex with hzero | hmost
    · rw [hzero]
      exact hlt 0 (.inl (Clock.zero_le _))
    · obtain ⟨q, hq, ⟨v, hv, hle⟩, hqup⟩ := hmost.exists_both hup
      exact hlt _ (.inr ⟨v, mem_held_iff.2 ⟨q, hq, hqup, hv⟩, hle⟩)

theorem keeps_of_put {c : Cluster} {known : List (Location × Bytes)} {r : PutRequest}
    {stamp : Stamp} {a : Version} (h : c.IsBacked known r.location)
    (hd : c.IsMajority (.put r stamp)) (hroom : c.HasRoom (.put r stamp))
    (ha : c.version? (.put r stamp) = some a) :
    (c.apply (.put r stamp)).Keeps (known ++ c.told (.put r stamp)) a r.writer.toHex := by
  have hlocation : a.location = r.location := by
    obtain ⟨base, reply, -, -, rfl⟩ := version?_put ha
    rfl
  obtain ⟨hversions, hcontexts⟩ := h.get_lt_of_put hd hroom ha
  have hup := most_up_of_version? hd ha
  have hwritten : ∀ v, (c.write a).Holds v → v.location = a.location →
      v = a ∨ (v.clock.get r.writer.toHex).toNat < (a.clock.get r.writer.toHex).toNat := by
    intro v hv hl
    rcases (grows_write c a).holds hv with hheld | hfresh
    · exact .inr (hversions v hheld (hl.trans hlocation))
    · exact .inl (Option.some_inj.1 hfresh).symm
  refine ⟨most_reach_apply hd ha, ?_, ?_, ?_⟩
  · have hholds : (c.write a).Most fun r => a ∈ r.store.versions a.location := by
      apply most_mem_write hup
      intro e he hl hlt
      have hbelow := hversions e he (hl.trans hlocation)
      have hcount := Clock.toNat_get_le hlt.le r.writer.toHex
      omega
    refine hholds.grows (grows_apply_of_version? ha) fun q q' htakes hq => ?_
    refine mem_versions_of_takes htakes (fun v hv hl hle => ?_) hq
    rcases hv with hv | hv
    · rcases hwritten v hv hl with heq | hlt
      · exact heq.symm
      · exact absurd (Clock.toNat_get_le hle r.writer.toHex) (by omega)
    · exact absurd hv (by simp)
  · intro v hv hl
    rcases (grows_apply_of_version? ha).holds hv with hheld | hnone
    · exact hwritten v hheld hl
    · exact absurd hnone (by simp)
  · intro bs hbs
    rcases List.mem_append.1 hbs with hold | hnew
    · obtain ⟨context, hcontext, hlt⟩ := hcontexts bs (hlocation ▸ hold)
      exact ⟨context, hcontext, .inl hlt⟩
    · obtain ⟨context, hcontext, hle⟩ :=
        le_context_of_mem_told hd hnew (.inr ⟨a, ha, rfl, rfl⟩)
      exact ⟨context, hcontext, .inr hle⟩

end Cluster

/-- Whether a step is one that may replace what a writer wrote: a deletion, a write of
the same writer, or a write that builds on it. -/
def Deed.MayReplace (a : Version) (writer : ClientId) : Deed → Prop
  | .delete .. => True
  | .put r _ => r.writer = writer ∨
      ∃ context, Clock.ofBytes r.context = .ok context ∧ a.clock ≤ context
  | .get .. | .setUp .. => False

namespace Cluster

/-- A new version that spares `a` counts of the writer what its context does: less than `a`. -/
theorem Keeps.get_lt_of_version? {c : Cluster} {known : List (Location × Bytes)} {a b : Version}
    {writer : ClientId} {d : Deed} (h : c.Keeps known a writer.toHex) (hbased : d.IsBased known)
    (hpos : 0 < (a.clock.get writer.toHex).toNat) (hspare : ¬d.MayReplace a writer)
    (hb : c.version? d = some b) (hl : b.location = a.location) :
    (b.clock.get writer.toHex).toNat < (a.clock.get writer.toHex).toNat := by
  cases d with
  | get l q => exact absurd hb (by simp [version?])
  | delete l q stamp => exact absurd trivial hspare
  | setUp i up => exact absurd hb (by simp [version?])
  | put r stamp =>
      obtain ⟨context, reply, hcontext, -, rfl⟩ := version?_put hb
      rw [Deed.MayReplace, not_or] at hspare
      have hne : writer.toHex ≠ r.writer.toHex := fun heq =>
        hspare.1 (ClientId.toHex_injective heq).symm
      have hcounter : (c.putVersion r context stamp).clock.get writer.toHex =
          context.get writer.toHex := get_writeClock_of_ne hne context _
      rw [hcounter]
      rcases hbased with hnil | hmem
      · rw [hnil] at hcontext
        injection hcontext with hcontext
        rw [← hcontext]
        exact hpos
      · have hmem' : (a.location, r.context) ∈ known := by
          rw [← hl]
          exact hmem
        obtain ⟨context', hcontext', hlt⟩ := h.contexts r.context hmem'
        rw [hcontext] at hcontext'
        injection hcontext' with hcontext'
        rw [← hcontext'] at hlt
        exact hlt.resolve_right fun hle => hspare.2 ⟨context, hcontext, hle⟩

theorem Keeps.apply {c : Cluster} {known : List (Location × Bytes)} {a : Version}
    {writer : ClientId} {d : Deed} (h : c.Keeps known a writer.toHex)
    (hd : c.IsMajority d) (hbased : d.IsBased known)
    (hpos : 0 < (a.clock.get writer.toHex).toNat)
    (hspare : ∀ b, c.version? d = some b → b.location = a.location → ¬d.MayReplace a writer) :
    (c.apply d).Keeps (known ++ c.told d) a writer.toHex := by
  have hversions : ∀ v, (c.Holds v ∨ c.version? d = some v) → v.location = a.location →
      v = a ∨ (v.clock.get writer.toHex).toNat < (a.clock.get writer.toHex).toNat := by
    rintro v (hv | hv) hl
    · exact h.versions v hv hl
    · exact .inr (h.get_lt_of_version? hbased hpos (hspare v hv hl) hv hl)
  refine ⟨h.reach.reach (grows_apply c d), ?_, ?_, ?_⟩
  · refine h.holds.grows (grows_apply c d) fun r r' htakes hr => ?_
    refine mem_versions_of_takes htakes (fun v hv hl hle => ?_) hr
    rcases hversions v hv hl with heq | hlt
    · exact heq.symm
    · exact absurd (Clock.toNat_get_le hle writer.toHex) (by omega)
  · exact fun v hv hl => hversions v ((grows_apply c d).holds hv) hl
  · intro bs hbs
    rcases List.mem_append.1 hbs with hold | hnew
    · exact h.contexts bs hold
    · obtain ⟨context, hcontext, hle⟩ := le_context_of_mem_told hd hnew (.inl h.reach)
      exact ⟨context, hcontext, .inr hle⟩

def Replaces (c : Cluster) (a : Version) (writer : ClientId) (ds : List Deed) : Prop :=
  ∃ before d after, ds = before ++ d :: after ∧ d.MayReplace a writer ∧
    ∃ b, (c.after before).version? d = some b ∧ b.location = a.location

theorem Keeps.after {c : Cluster} {known : List (Location × Bytes)} {a : Version}
    {writer : ClientId} {ds : List Deed} (h : c.Keeps known a writer.toHex)
    (hds : c.IsCareful known ds) (hpos : 0 < (a.clock.get writer.toHex).toNat)
    (hspare : ¬c.Replaces a writer ds) :
    (c.after ds).Keeps (known ++ c.toldBy ds) a writer.toHex := by
  induction ds generalizing c known with
  | nil => simpa [toldBy] using h
  | cons d ds ih =>
      have hstep : (c.apply d).Keeps (known ++ c.told d) a writer.toHex :=
        h.apply hds.1 hds.2.2.1 hpos fun b hb hl hmay =>
          hspare ⟨[], d, ds, rfl, hmay, b, hb, hl⟩
      have hrest : ¬(c.apply d).Replaces a writer ds := by
        rintro ⟨before, e, after, rfl, hmay, b, hb, hl⟩
        exact hspare ⟨d :: before, e, after, rfl, hmay, b, hb, hl⟩
      have hafter := ih hstep hds.2.2.2 hrest
      rwa [List.append_assoc] at hafter

theorem Most.reach_after {c : Cluster} {l : Location} {k : Clock}
    (h : c.Most fun r => Reach (r.store.versions l) k) (ds : List Deed) :
    (c.after ds).Most fun r => Reach (r.store.versions l) k := by
  induction ds generalizing c with
  | nil => exact h
  | cons d ds ih => exact ih (h.reach (grows_apply c d))

theorem not_le_of_version? {c : Cluster} {d : Deed} {b : Version} {k : Clock}
    (hd : c.IsMajority d) (hroom : c.HasRoom d) (hb : c.version? d = some b)
    (hk : c.Most fun r => Reach (r.store.versions b.location) k) : ¬b.clock ≤ k := by
  obtain ⟨v, hv, hle⟩ := hk.exists_held (most_up_of_version? hd hb)
  cases d with
  | get l q => exact absurd hb (by simp [version?])
  | put r stamp =>
      obtain ⟨context, reply, hcontext, -, rfl⟩ := version?_put hb
      exact fun hback => not_writeClock_le (hroom context hcontext) hv (hback.trans hle)
  | delete l q stamp =>
      obtain ⟨-, rfl⟩ := version?_delete hb
      have hlt : coverOf (c.held l) < (c.deleteVersion l stamp).clock := Clock.lt_increment hroom
      exact fun hback => absurd (hback.trans (hle.trans (le_coverOf hv))) hlt.not_ge
  | setUp i up => exact absurd hb (by simp [version?])

/-- What is kept, a read from a majority returns. -/
theorem Keeps.mem_reply {c : Cluster} {known : List (Location × Bytes)} {a : Version}
    {actor : String} (h : c.Keeps known a actor) (hup : c.Most (·.up = true))
    (halive : a.tombstone = false) :
    ⟨a.value, a.time, a.tag⟩ ∈ (replyOf (reconcile (c.held a.location))).versions := by
  obtain ⟨r, hr, hmem, hrup⟩ := h.holds.exists_both hup
  have hmax : a ∈ reconcile (c.held a.location) := by
    apply mem_reconcile (mem_held_iff.2 ⟨r, hr, hrup, hmem⟩)
    intro w hw hle
    rcases h.versions w (holds_of_mem_held hw) (location_of_mem_held hw) with heq | hlt
    · exact heq
    · have hcount := Clock.toNat_get_le hle actor
      omega
  exact List.mem_map.2 ⟨a, List.mem_filter.2 ⟨hmax, by simp [halive]⟩, rfl⟩

theorem get_pos_of_put {c : Cluster} {r : PutRequest} {stamp : Stamp} {a : Version}
    (hroom : c.HasRoom (.put r stamp)) (ha : c.version? (.put r stamp) = some a) :
    0 < (a.clock.get r.writer.toHex).toNat := by
  obtain ⟨base, reply, hbase, -, rfl⟩ := version?_put ha
  have hlt := get_lt_writeClock (hroom base hbase) (.inl (UInt64.le_refl _))
  exact Nat.lt_of_le_of_lt (Nat.zero_le _) hlt

/-! ## The result -/

/-- What a careful run does with an acknowledged write. No later write or deletion of
its location is at or below it; every later read tells a context at or above it,
and returns it unless a step in between may have replaced it. -/
theorem acknowledged_write_kept {settings : ClusterSettings} {node : ClientId}
    {before between : List Deed} {r : PutRequest} {stamp : Stamp} {last : Deed} {a : Version}
    (hrun : (empty settings node).IsCareful [] (before ++ .put r stamp :: (between ++ [last])))
    (ha : ((empty settings node).after before).version? (.put r stamp) = some a)
    {c : Cluster} (hc : c = (empty settings node).after (before ++ .put r stamp :: between)) :
    (∀ b, c.version? last = some b → b.location = a.location → ¬b.clock ≤ a.clock) ∧
      ∀ q reply, last = .get r.location q → (c.get r.location q).result = .ok reply →
        (∃ context, Clock.ofBytes reply.context = .ok context ∧ a.clock ≤ context) ∧
          (⟨a.value, a.time, a.tag⟩ ∈ reply.versions ∨
            ((empty settings node).after (before ++ [.put r stamp])).Replaces a r.writer
              between) := by
  obtain ⟨hbefore, hput⟩ := isCareful_append.1 hrun
  obtain ⟨hmajority, hroom, -, hrest⟩ := hput
  obtain ⟨hbetween, hlast⟩ := isCareful_append.1 hrest
  obtain ⟨hlastMajority, hlastRoom, -⟩ := hlast
  obtain ⟨hlocation, halive⟩ : a.location = r.location ∧ a.tombstone = false := by
    obtain ⟨base, reply, -, -, rfl⟩ := version?_put ha
    exact ⟨rfl, rfl⟩
  have hbacked := (isBacked_empty settings node r.location).after hbefore
  have hreach := (most_reach_apply hmajority ha).reach_after between
  have hkeeps := keeps_of_put hbacked hmajority hroom ha
  rw [after_append, after_cons] at hc
  subst hc
  rw [after_append, after_cons, after_nil]
  constructor
  · intro b hb hl
    apply not_le_of_version? hlastMajority hlastRoom hb
    rw [hl]
    exact hreach
  · intro q reply hget hreply
    subst hget
    have hup : Most _ (·.up = true) := most_up hlastMajority (get_ok hreply).1
    obtain rfl := (get_ok hreply).2.2.1
    rw [← hlocation]
    constructor
    · exact ⟨_, ofBytes_context _, le_coverOf_reconcile (hreach.exists_held hup)⟩
    · by_cases hreplaced :
          (((empty settings node).after before).apply (.put r stamp)).Replaces a r.writer between
      · exact .inr hreplaced
      · have hafter := hkeeps.after hbetween (get_pos_of_put hroom ha) hreplaced
        exact .inl (hafter.mem_reply hup halive)

def firstWrite : PutRequest := ⟨⟨"b", "k"⟩, [0], [], default, .majority, false⟩

theorem acknowledged_write_kept_firstWrite :
    let c := (empty {} default).after [.put firstWrite ⟨"first", 0⟩, .setUp 0 false]
    ∃ a reply, (empty {} default).version? (.put firstWrite ⟨"first", 0⟩) = some a ∧
      (c.get ⟨"b", "k"⟩ .majority).result = .ok reply ∧
      ∃ context, Clock.ofBytes reply.context = .ok context ∧ a.clock ≤ context := by
  intro c
  have hok : (c.get ⟨"b", "k"⟩ .majority).result.isOk = true := by decide +kernel
  have hsome : ((empty {} default).version? (.put firstWrite ⟨"first", 0⟩)).isSome = true := by
    decide +kernel
  obtain ⟨a, ha⟩ := Option.isSome_iff_exists.1 hsome
  have hrun : (empty {} default).IsCareful []
      ([] ++ .put firstWrite ⟨"first", 0⟩ ::
        ([.setUp 0 false] ++ [.get ⟨"b", "k"⟩ .majority])) := by
    refine ⟨?_, fun context hcontext => ?_, .inl rfl, trivial, trivial, trivial, ?_,
      trivial, trivial, trivial⟩
    · unfold IsMajority WritesMost
      decide
    · injection hcontext with hcontext
      rw [← hcontext]
      unfold Clock.Room
      decide +kernel
    · unfold IsMajority ReadsMost
      decide +kernel
  cases hreply : (c.get ⟨"b", "k"⟩ .majority).result with
  | error e =>
      rw [hreply] at hok
      exact absurd hok (by simp [Except.isOk, Except.toBool])
  | ok reply =>
      exact ⟨a, reply, ha, rfl, ((acknowledged_write_kept hrun ha rfl).2 _ reply rfl hreply).1⟩

end Cluster

end SiblingStore
