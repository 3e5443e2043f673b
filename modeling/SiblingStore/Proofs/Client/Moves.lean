import SiblingStore.Client.Bucket
import SiblingStore.Proofs.Client.Calls
import SiblingStore.Simulation.Deployment

/-!
# What a client does alone

An operation that asks a majority does to a world that stands for a map what it does to
the map, and tells what the map has to tell, or it fails and changes nothing. It never
meets siblings, so its resolver has no say.
-/

namespace SiblingStore

open Cluster (update)

variable {α β : Type}

/-! ## Operations that run alone -/

def Pending.conduct (p : Pending β) (w : World) : Option (Except OperationError β) × World :=
  (p.activity Prod.mk).run w

namespace Pending

variable {m : Location → Option Bytes} {met : Nat} {goal : Goal} {w : World} {call : Call}

theorem conduct_eq {w' : World} {call' : Call}
    (hrun : ∀ {ρ : Type} (f : Except OperationError Reply → World → ρ × World),
      Activity.run w (.call call f) =
        ((Activity.concluded f w' call').2.result?, (Activity.concluded f w' call').1))
    (conclude : Reply → World → Except OperationError β × World) :
    (calls call conclude).conduct w =
      match call'.phase with
      | .ended result => (some (outcome conclude result w').1, (outcome conclude result w').2)
      | _ => (none, w') := by
  change Activity.run w (.call call _) = _
  rw [hrun]
  cases hphase : call'.phase <;> simp only [Activity.concluded, hphase] <;> rfl

/-- A call that succeeds has achieved its goal; one that does not has changed nothing. -/
theorem conduct_calls (h : call.Sound m met goal w) :
    (∃ reply w', goal.Answers m reply ∧ w'.Stands (goal.after m) met ∧
      ∀ {β : Type} (conclude : Reply → World → Except OperationError β × World),
        (calls call conclude).conduct w =
          (some (conclude reply w').1, (conclude reply w').2)) ∨
    (∃ (error : Option OperationError) (w' : World), w'.Stands m met ∧
      ∀ {β : Type} (conclude : Reply → World → Except OperationError β × World),
        (calls call conclude).conduct w = (error.map .error, w')) := by
  obtain ⟨w', call', hsound, hrun⟩ := Activity.run_call Call.keeps_sound h
  cases hphase : call'.phase with
  | ended result =>
      simp only [Call.Sound, hphase] at hsound
      cases result with
      | ok reply =>
          refine .inl ⟨reply, w', hsound.1, hsound.2, fun conclude => ?_⟩
          rw [conduct_eq hrun, hphase]
          rfl
      | error e =>
          obtain ⟨cluster, hpursues⟩ := hsound
          refine .inr ⟨some e, w', hpursues.stands, fun conclude => ?_⟩
          rw [conduct_eq hrun, hphase]
          rfl
  | working flight deadline =>
      simp only [Call.Sound, hphase] at hsound
      obtain ⟨cluster, hpursues, -⟩ := hsound
      refine .inr ⟨none, w', hpursues.stands, fun conclude => ?_⟩
      rw [conduct_eq hrun, hphase]
      rfl
  | _ =>
      simp only [Call.Sound, hphase] at hsound
      obtain ⟨cluster, hpursues⟩ := hsound
      refine .inr ⟨none, w', hpursues.stands, fun conclude => ?_⟩
      rw [conduct_eq hrun, hphase]
      rfl

end Pending

/-! ## Moves -/

/-- What a client does, or what befalls a replica meanwhile. -/
inductive Move (α : Type) where
  | store (client : Client) (bucket : Bucket α) (key : String) (value : α)
      (config : OperationConfig)
  | fetch (client : Client) (bucket : Bucket α) (key : String) (config : OperationConfig)
  | delete (client : Client) (bucket : Bucket α) (key : String) (config : OperationConfig)
  | keys (client : Client) (bucket : Bucket α) (config : OperationConfig)
  | connect (replica : Nat) (up : Bool)

inductive Move.Answer (α : Type) where
  | stored (body : Option (Fetched α))
  | fetched (found : Option (Fetched α))
  | deleted
  | listed (names : List String)
  | connected

def World.perform (w : World) :
    Move α → Option (Except OperationError (Move.Answer α)) × World
  | .store c b key value config => ((b.store c key value config).map .stored).conduct w
  | .fetch c b key config => ((b.fetch c key config).map .fetched).conduct w
  | .delete c b key config => ((b.delete c key config).map fun _ => .deleted).conduct w
  | .keys c b config => ((b.keys c config).map .listed).conduct w
  | .connect i up => (some (.ok .connected), w.connect i up)

namespace Move

def after (m : Location → Option α) : Move α → Location → Option α
  | store _ b key value _ => update m (b.locate key) (some value)
  | delete _ b key _ => update m (b.locate key) none
  | fetch .. | keys .. | connect .. => m

/-- Whether an answer is what the map has to tell. -/
def Answers (m : Location → Option α) (answer : Answer α) : Move α → Prop
  | store _ _ _ value _ =>
    answer = .stored none ∨ ∃ context, answer = .stored (some (.value value context))
  | fetch _ b key _ =>
    ∃ context, answer = .fetched ((m (b.locate key)).map fun value => .value value context)
  | delete .. => answer = .deleted
  | keys _ b _ => ∃ names, answer = .listed names ∧
      (∀ key, key ∈ names ↔ (m (b.locate key)).isSome = true) ∧
      names.Pairwise fun a b => Text.Utf8.encode a < Text.Utf8.encode b
  | connect .. => answer = .connected

def under (resolver : Resolver α) : Move α → Move α
  | store c b key value config => store c { b with resolver } key value config
  | fetch c b key config => fetch c { b with resolver } key config
  | delete c b key config => delete c { b with resolver } key config
  | keys c b config => keys c { b with resolver } config
  | connect i up => connect i up

/-- Whether a move uses a converter and asks most of the replicas, and a store builds on
what it reads itself. -/
def Allowed (codec : Codec α) (c : Cluster) : Move α → Prop
  | store _ b _ _ config => b.codec = codec ∧ config.context = none ∧
      c.ReadsMost config.quorum ∧ c.WritesMost config.quorum
  | fetch _ b _ config => b.codec = codec ∧ c.ReadsMost config.quorum
  | delete _ _ _ config => c.WritesMost config.quorum
  | keys .. => c.Most (·.up = true)
  | connect .. => True

end Move

/-! ## Reading -/

def Codec.Relates (codec : Codec α) (m : Location → Option α) (m' : Location → Option Bytes) :
    Prop :=
  ∀ l, Option.Rel (fun value bs => codec.encode value = .ok bs) (m l) (m' l)

def Codec.Faithful (codec : Codec α) : Prop :=
  ∀ value bs, codec.encode value = .ok bs → codec.decode bs = .ok value

theorem Codec.Relates.update {codec : Codec α} {m : Location → Option α}
    {m' : Location → Option Bytes} (h : codec.Relates m m') {l : Location} {value : Option α}
    {bs : Option Bytes} (hvalue : Option.Rel (fun a bs => codec.encode a = .ok bs) value bs) :
    codec.Relates (update m l value) (update m' l bs) := by
  intro l'
  unfold Cluster.update
  split_ifs
  · exact hvalue
  · exact h l'

theorem Codec.Relates.isSome_eq {codec : Codec α} {m : Location → Option α}
    {m' : Location → Option Bytes} (h : codec.Relates m m') (l : Location) :
    (m' l).isSome = (m l).isSome := by
  have hrel := h l
  generalize m l = value at hrel
  generalize m' l = bs at hrel
  cases hrel <;> rfl

/-- A single version is the value itself, and none is no value: the resolver has no say. -/
theorem Bucket.read_eq (b : Bucket α) (hcodec : b.codec.Faithful) (l : Location) {value : Option α}
    {bs : Option Bytes} (hvalue : Option.Rel (fun a bs => b.codec.encode a = .ok bs) value bs)
    {reply : FetchReply} (hreply : reply.versions.map (·.value) = bs.toList) (resolve : Bool) :
    b.read l resolve reply =
      ⟨.ok (value.map fun a => .value a reply.context), [], []⟩ := by
  cases hvalue with
  | none =>
      have hnil : reply.versions = [] := List.map_eq_nil_iff.1 hreply
      rw [Bucket.read, hnil]
      rfl
  | @some a bs hencode =>
      obtain ⟨v, hversions, hv⟩ : ∃ v, reply.versions = [v] ∧ v.value = bs := by
        obtain ⟨v, vs, hcons, hv, hvs⟩ := List.map_eq_cons_iff.1 hreply
        exact ⟨v, by rw [hcons, List.map_eq_nil_iff.1 hvs], hv⟩
      have hdecode : b.codec.decode v.value = .ok a := by
        rw [hv]
        exact hcodec a bs hencode
      have hall : b.decodeAll l [v] = .ok [⟨a, v.time, v.tag⟩] := by
        simp only [Bucket.decodeAll, Bucket.decodeOne, hdecode]
        rfl
      rw [Bucket.read, hversions, hall]
      rfl

/-! ## One move -/

/-- Whether a world stands for a map of values, with so many fetches that have met siblings. -/
def World.Tells (codec : Codec α) (m : Location → Option α) (met : Nat) (w : World) : Prop :=
  ∃ m', w.Stands m' met ∧ codec.Relates m m'

/-- Whether a move may be made in a world: no counter of its cluster is used up. -/
def World.Admits (codec : Codec α) (w : World) (move : Move α) : Prop :=
  ∃ cluster, w.backend = .cluster cluster ∧ cluster.Unspent ∧ move.Allowed codec cluster

/-- Whether a move does to a world what it does to a map, without asking the resolver, or
else fails and changes nothing. -/
def World.Obeys (codec : Codec α) (m : Location → Option α) (met : Nat) (w : World)
    (move : Move α) : Prop :=
  (∀ resolver, w.perform (move.under resolver) = w.perform move) ∧
    ((∃ answer w', w.perform move = (some (.ok answer), w') ∧ move.Answers m answer ∧
      w'.Tells codec (move.after m) met) ∨
    ∃ (error : Option OperationError) (w' : World),
      w.perform move = (error.map .error, w') ∧ w'.Tells codec m met)

section

variable {codec : Codec α} {m : Location → Option α} {m' : Location → Option Bytes} {met : Nat}
  {w : World} {cluster : Cluster}

theorem Call.sound_start (h : w.Stands m' met) (hbackend : w.backend = .cluster cluster)
    (hunspent : cluster.Unspent) (c : Client) {goal : Goal} {config : OperationConfig}
    (hasks : goal.AsksMost cluster config) : (c.call goal config).Sound m' met goal w := by
  obtain ⟨cluster', hbackend', hreflects⟩ := h.reflects
  rw [hbackend] at hbackend'
  injection hbackend' with hcluster
  subst hcluster
  exact ⟨cluster, ⟨rfl, hbackend, h.quiet, h.met, hreflects, hunspent, hasks⟩⟩

theorem World.obeys_fetch (hstands : w.Stands m' met) (hbackend : w.backend = .cluster cluster)
    (hunspent : cluster.Unspent) (c : Client) {b : Bucket α} (hfaithful : b.codec.Faithful)
    (hrelates : b.codec.Relates m m') (key : String) {config : OperationConfig}
    (hq : cluster.ReadsMost config.quorum) :
    w.Obeys b.codec m met (.fetch c b key config) := by
  have hsound : (c.call (.fetch (b.locate key)) config).Sound m' met _ w :=
    Call.sound_start hstands hbackend hunspent c hq
  rcases Pending.conduct_calls hsound with
    ⟨reply, w', hanswers, hstands', hconduct⟩ | ⟨error, w', hstands', hconduct⟩
  · have hperform : ∀ resolver, w.perform (.fetch c { b with resolver } key config) =
        (some (.ok (.fetched ((m (b.locate key)).map fun value =>
          .value value reply.found.context))), w') := by
      intro resolver
      have hread := Bucket.read_eq { b with resolver } hfaithful (b.locate key)
        (hrelates (b.locate key)) hanswers (!config.allowSiblings)
      refine (hconduct _).trans ?_
      simp only [Bucket.locate] at hread ⊢
      rw [hread]
      rfl
    refine ⟨fun resolver => (hperform resolver).trans (hperform b.resolver).symm, .inl ?_⟩
    exact ⟨_, w', hperform b.resolver, ⟨_, rfl⟩, m', hstands', hrelates⟩
  · refine ⟨fun resolver => (hconduct _).trans (hconduct _).symm, .inr ?_⟩
    exact ⟨error, w', hconduct _, m', hstands', hrelates⟩

/-- What a store hands back is the value it has written, if anything. -/
theorem World.perform_store {c : Client} {b : Bucket α} (hfaithful : b.codec.Faithful)
    {key : String} {value : α} {bs : Bytes} (hencode : b.codec.encode value = .ok bs)
    {config : OperationConfig} {reply : Reply} {w' : World}
    (hreply : ∀ body, reply.stored.body = some body → body.versions.map (·.value) = [bs])
    (hconduct : ∀ {β : Type} (conclude : Reply → World → Except OperationError β × World),
      (Pending.calls (c.call (.store (b.locate key) bs) config) conclude).conduct w =
        (some (conclude reply w').1, (conclude reply w').2)) :
    ∃ body, (body = none ∨ ∃ context, body = some (.value value context)) ∧
      ∀ resolver, w.perform (.store c { b with resolver } key value config) =
        (some (.ok (.stored body)), w') := by
  cases hbody : reply.stored.body with
  | none =>
      refine ⟨none, .inl rfl, fun resolver => ?_⟩
      simp only [perform, Bucket.store, hencode]
      refine (hconduct _).trans ?_
      simp only [hbody]
  | some body =>
      cases hreturn : config.returnBody with
      | false =>
          refine ⟨none, .inl rfl, fun resolver => ?_⟩
          simp only [perform, Bucket.store, hencode]
          refine (hconduct _).trans ?_
          simp [hbody, hreturn]
      | true =>
          refine ⟨some (.value value body.context), .inr ⟨_, rfl⟩, fun resolver => ?_⟩
          have hread := Bucket.read_eq { b with resolver } hfaithful (b.locate key)
            (.some hencode) (hreply body hbody) false
          simp only [perform, Bucket.store, hencode]
          refine (hconduct _).trans ?_
          simp only [Bucket.locate] at hread ⊢
          simp only [hbody, hreturn, if_true, hread]
          rfl

theorem World.obeys_store (hstands : w.Stands m' met) (hbackend : w.backend = .cluster cluster)
    (hunspent : cluster.Unspent) (c : Client) {b : Bucket α} (hfaithful : b.codec.Faithful)
    (hrelates : b.codec.Relates m m') (key : String) (value : α) {config : OperationConfig}
    (hcontext : config.context = none) (hread : cluster.ReadsMost config.quorum)
    (hwrite : cluster.WritesMost config.quorum) :
    w.Obeys b.codec m met (.store c b key value config) := by
  cases hencode : b.codec.encode value with
  | error e =>
      have hperform : ∀ resolver, w.perform (.store c { b with resolver } key value config) =
          (some (.error (.conversion (b.locate key) e)), w) := by
        intro resolver
        simp only [perform, Bucket.store, hencode]
        rfl
      refine ⟨fun resolver => (hperform resolver).trans (hperform b.resolver).symm, .inr ?_⟩
      exact ⟨some _, w, hperform b.resolver, m', hstands, hrelates⟩
  | ok bs =>
      have hsound : (c.call (.store (b.locate key) bs) config).Sound m' met _ w :=
        Call.sound_start hstands hbackend hunspent c ⟨hcontext, hread, hwrite⟩
      rcases Pending.conduct_calls hsound with
        ⟨reply, w', hanswers, hstands', hconduct⟩ | ⟨error, w', hstands', hconduct⟩
      · obtain ⟨body, hbody, hperform⟩ := perform_store hfaithful hencode hanswers hconduct
        refine ⟨fun resolver => (hperform resolver).trans (hperform b.resolver).symm, .inl ?_⟩
        refine ⟨_, w', hperform b.resolver, ?_, _, hstands', hrelates.update (.some hencode)⟩
        exact hbody.imp (congrArg _) fun ⟨context, heq⟩ => ⟨context, congrArg _ heq⟩
      · have hperform : ∀ resolver, w.perform (.store c { b with resolver } key value config) =
            (error.map .error, w') := by
          intro resolver
          simp only [perform, Bucket.store, hencode]
          exact hconduct _
        refine ⟨fun resolver => (hperform resolver).trans (hperform b.resolver).symm, .inr ?_⟩
        exact ⟨error, w', hperform b.resolver, m', hstands', hrelates⟩

theorem World.obeys_delete (hstands : w.Stands m' met) (hbackend : w.backend = .cluster cluster)
    (hunspent : cluster.Unspent) (c : Client) {codec : Codec α} (b : Bucket α)
    (hrelates : codec.Relates m m') (key : String) {config : OperationConfig}
    (hq : cluster.WritesMost config.quorum) :
    w.Obeys codec m met (.delete c b key config) := by
  have hsound : (c.call (.delete (b.locate key)) config).Sound m' met _ w :=
    Call.sound_start hstands hbackend hunspent c hq
  refine ⟨fun resolver => rfl, ?_⟩
  rcases Pending.conduct_calls hsound with
    ⟨reply, w', -, hstands', hconduct⟩ | ⟨error, w', hstands', hconduct⟩
  · exact .inl ⟨.deleted, w', hconduct _, rfl, _, hstands', hrelates.update .none⟩
  · exact .inr ⟨error, w', hconduct _, m', hstands', hrelates⟩

theorem World.obeys_keys (hstands : w.Stands m' met) (hbackend : w.backend = .cluster cluster)
    (hunspent : cluster.Unspent) (c : Client) {codec : Codec α} (b : Bucket α)
    (hrelates : codec.Relates m m') {config : OperationConfig}
    (hup : cluster.Most (·.up = true)) :
    w.Obeys codec m met (.keys c b config) := by
  have hsound : (c.call (.keys b.name) config).Sound m' met _ w :=
    Call.sound_start hstands hbackend hunspent c hup
  refine ⟨fun resolver => rfl, ?_⟩
  rcases Pending.conduct_calls hsound with
    ⟨reply, w', hanswers, hstands', hconduct⟩ | ⟨error, w', hstands', hconduct⟩
  · refine .inl ⟨.listed reply.names, w', hconduct _, ⟨_, rfl, fun key => ?_, hanswers.2⟩, m',
      hstands', hrelates⟩
    rw [hanswers.1]
    exact (hrelates.isSome_eq (b.locate key)).symm ▸ Iff.rfl
  · exact .inr ⟨error, w', hconduct _, m', hstands', hrelates⟩

theorem World.obeys_connect (hstands : w.Stands m' met)
    {codec : Codec α} (hrelates : codec.Relates m m') (i : Nat) (up : Bool) :
    w.Obeys codec m met (.connect i up) := by
  refine ⟨fun resolver => rfl, .inl ⟨.connected, w.connect i up, rfl, rfl, m', ?_, hrelates⟩⟩
  obtain ⟨cluster, hbackend, hreflects⟩ := hstands.reflects
  have hcluster : w.cluster? = some cluster := by
    unfold World.cluster?
    rw [hbackend]
  unfold World.connect
  rw [hcluster]
  dsimp only
  by_cases hi : i < cluster.size
  · rw [if_pos hi]
    have hsetUp : (cluster.setUp i up).Reflects m' :=
      hreflects.grows (Cluster.grows_apply cluster (.setUp i up))
    exact ⟨hstands.quiet, ⟨cluster.setUp i up, rfl, hsetUp⟩, hstands.met⟩
  · rw [if_neg hi]
    exact hstands

theorem World.Tells.obeys (hfaithful : codec.Faithful) (h : w.Tells codec m met) {move : Move α}
    (hadmits : w.Admits codec move) : w.Obeys codec m met move := by
  obtain ⟨m', hstands, hrelates⟩ := h
  obtain ⟨cluster, hbackend, hunspent, hallowed⟩ := hadmits
  cases move with
  | store c b key value config =>
      obtain ⟨hcodec, hcontext, hread, hwrite⟩ := hallowed
      subst hcodec
      exact obeys_store hstands hbackend hunspent c hfaithful hrelates key value hcontext hread
        hwrite
  | fetch c b key config =>
      obtain ⟨hcodec, hread⟩ := hallowed
      subst hcodec
      exact obeys_fetch hstands hbackend hunspent c hfaithful hrelates key hread
  | delete c b key config =>
      exact obeys_delete hstands hbackend hunspent c b hrelates key hallowed
  | keys c b config => exact obeys_keys hstands hbackend hunspent c b hrelates hallowed
  | connect i up => exact obeys_connect hstands hrelates i up

end

end SiblingStore
