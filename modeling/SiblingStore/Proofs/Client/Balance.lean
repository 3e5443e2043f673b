import SiblingStore.Proofs.Client.Accounts
import SiblingStore.Proofs.Simulation.Crowd

/-!
# Balance of the metrics

While operations are under way the metrics are out of balance by what these have yet to count.
Once all have ended, the increases add up: attempts with operations and retries, failed
attempts with retries and failures, observed conflicts with what became of them.
-/

namespace SiblingStore

open Fetched (handsOut)

/-- The operations that clients and buckets offer, each with whether it hands out siblings. -/
inductive Pending.Offered : Pending Bool → Prop where
  | fetch {α : Type} (b : Bucket α) (c : Client) (key : String) (config : OperationConfig) :
      Offered ((b.fetch c key config).map handsOut)
  | fetchValue {α : Type} (b : Bucket α) (c : Client) (key : String) (config : OperationConfig) :
      Offered ((b.fetchValue c key config).map fun _ => false)
  | store {α : Type} (b : Bucket α) (c : Client) (key : String) (value : α)
      (config : OperationConfig) : Offered ((b.store c key value config).map handsOut)
  | delete {α : Type} (b : Bucket α) (c : Client) (key : String) (config : OperationConfig) :
      Offered ((b.delete c key config).map fun _ => false)
  | keys {α : Type} (b : Bucket α) (c : Client) (config : OperationConfig) :
      Offered ((b.keys c config).map fun _ => false)
  | storeObject {α : Type} (b : Bucket α) (k : ObjectKey α) (c : Client) (object : α)
      (config : OperationConfig) : Offered ((b.storeObject k c object config).map handsOut)
  | fetchObject {α : Type} (b : Bucket α) (k : ObjectKey α) (c : Client) (object : α)
      (config : OperationConfig) : Offered ((b.fetchObject k c object config).map handsOut)
  | deleteObject {α : Type} (b : Bucket α) (k : ObjectKey α) (c : Client) (object : α)
      (config : OperationConfig) :
      Offered ((b.deleteObject k c object config).map fun _ => false)
  | fetchRaw (c : Client) (l : Location) (config : OperationConfig) :
      Offered ((c.fetch l config).map fun _ => false)
  | storeRaw (c : Client) (l : Location) (value : Bytes) (config : OperationConfig) :
      Offered ((c.store l value config).map fun _ => false)
  | deleteRaw (c : Client) (l : Location) (config : OperationConfig) :
      Offered ((c.delete l config).map fun _ => false)
  | listKeys (c : Client) (bucket : String) (config : OperationConfig) :
      Offered ((c.keys bucket config).map fun _ => false)

theorem Pending.Offered.isFair {p : Pending Bool} (h : p.Offered) : p.IsFair id := by
  have hcall {β : Type} {c : Call} {read : Reply → β} (hphase : c.phase = .idle) :
      ((ofCall c read).map fun _ => false).IsFair id :=
    isFair_map (isFair_ofCall hphase read) fun _ => rfl
  cases h with
  | fetch b c key config => exact isFair_map (b.isFair_fetch c key config) fun _ => rfl
  | fetchValue b c key config => exact isFair_map (b.isFair_fetchValue c key config) fun _ => rfl
  | store b c key value config =>
      exact isFair_map (b.isFair_store c key value config) fun _ => rfl
  | storeObject b k c object config =>
      exact isFair_map (Bucket.isFair_withKey fun key => b.isFair_store c key object config)
        fun _ => rfl
  | fetchObject b k c object config =>
      exact isFair_map (Bucket.isFair_withKey fun key => b.isFair_fetch c key config)
        fun _ => rfl
  | deleteObject b k c object config =>
      have hdelete : (b.deleteObject k c object config).IsFair fun _ => false :=
        Bucket.isFair_withKey fun key => isFair_ofCall rfl _
      exact isFair_map hdelete fun _ => rfl
  | delete | keys | fetchRaw | storeRaw | deleteRaw | listKeys => exact hcall rfl

/-- An operation under way, or what it has come to. -/
inductive Operation where
  | running (call : Call) (conclude : Reply → World → Except OperationError Bool × World)
  | ended (result : Except OperationError Bool)

def Pending.operation : Pending Bool → Operation
  | refused e => .ended (.error e)
  | calls call conclude => .running call conclude

namespace Operation

def isDue : Operation → Bool
  | running call _ => call.phase.isDue
  | ended _ => false

def hasFailed : Operation → Bool
  | running call _ => call.phase.hasFailed
  | ended (.error e) => e.engineError?.isSome
  | ended (.ok _) => false

def hasHanded : Operation → Bool
  | ended (.ok handed) => handed
  | ended (.error _) | running .. => false

def IsOver (o : Operation) : Prop := ∃ result, o = ended result

/-- The turns of an operation: its call takes a step, or it makes something of what its call
has come to. -/
inductive Turns : World → Operation → World → Operation → Prop where
  | step {w w' : World} {call call' : Call}
      {conclude : Reply → World → Except OperationError Bool × World} :
      call.step w = some (w', call') → Turns w (running call conclude) w' (running call' conclude)
  | conclude {w : World} {call : Call}
      {conclude : Reply → World → Except OperationError Bool × World}
      {result : Except OperationError Reply} : call.phase = .ended result →
      Turns w (running call conclude) (Pending.outcome conclude result w).2
        (ended (Pending.outcome conclude result w).1)

def IsFair : Operation → Prop
  | running _ conclude => ∀ reply w, Fair id w (conclude reply w)
  | ended _ => True

end Operation

open Crowd

/-- Operations of any clients and buckets begin at any time and have their turns in any order,
while anything but the metrics may change in between. -/
def operating : Rules Operation where
  joins o := ∃ p : Pending Bool, p.Offered ∧ o = p.operation
  turn := Operation.Turns
  befalls w w' := w'.metrics = w.metrics

theorem keep_operating : operating.Keep (fun _ => True) Operation.IsFair where
  join := by
    rintro o ⟨p, hp, rfl⟩
    have hfair := hp.isFair
    cases p with
    | refused e => trivial
    | calls call conclude => exact hfair.2
  turn := by
    intro w w' o o' _ hfair hturn
    cases hturn with
    | step => exact ⟨trivial, hfair⟩
    | conclude => exact ⟨trivial, trivial⟩
  befall := fun _ _ => trivial

theorem joins_operating {o : Operation} (h : operating.joins o) :
    o.isDue = false ∧ o.hasFailed = false ∧ o.hasHanded = false := by
  obtain ⟨p, hp, rfl⟩ := h
  have hfair := hp.isFair
  cases p with
  | refused e =>
      refine ⟨rfl, ?_, rfl⟩
      show e.engineError?.isSome = false
      rw [hfair]
      rfl
  | calls call conclude =>
      refine ⟨?_, ?_, rfl⟩
      · show call.phase.isDue = false
        rw [hfair.1]
        rfl
      · show call.phase.hasFailed = false
        rw [hfair.1]
        rfl

namespace Operation

/-- Whether the metrics move with what an operation has yet to count. -/
structure Moves (m : Metrics) (o : Operation) (m' : Metrics) (o' : Operation) : Prop where
  pending : m'.pending - o'.isDue.toNat = m.pending - o.isDue.toNat
  lost : m'.lost - o'.hasFailed.toNat = m.lost - o.hasFailed.toNat
  presented : m'.presented - o'.hasHanded.toNat = m.presented - o.hasHanded.toNat

theorem moves_step {w w' : World} {call call' : Call} (h : call.step w = some (w', call'))
    (conclude : Reply → World → Except OperationError Bool × World) :
    Moves w.metrics (running call conclude) w'.metrics (running call' conclude) := by
  have haccounts : Call.Accounts w.metrics call.phase w'.metrics call'.phase :=
    Call.accounts_of_takes (Call.takes_of_step h)
  constructor
  · rw [haccounts.pending]
    show _ - (call'.phase.isDue.toNat : Int) = _ - (call.phase.isDue.toNat : Int)
    omega
  · rw [haccounts.lost]
    show _ - (call'.phase.hasFailed.toNat : Int) = _ - (call.phase.hasFailed.toNat : Int)
    omega
  · rw [haccounts.presented]
    rfl

theorem moves_ended {w : World} {next : Except OperationError Bool × World} (h : Fair id w next) :
    Moves w.metrics (ended (.ok false)) next.2.metrics (ended next.1) := by
  obtain ⟨result, w'⟩ := next
  constructor
  · rw [h.stays.pending]
    rfl
  · rw [h.stays.lost]
    cases result with
    | ok handed => rfl
    | error e =>
        have hnone : e.engineError? = none := h.engineError? e rfl
        show _ - (e.engineError?.isSome.toNat : Int) = _
        rw [hnone]
        rfl
  · rw [h.presented]
    cases result with
    | ok handed =>
        show _ + (handed.toNat : Int) - (handed.toNat : Int) = _ - 0
        omega
    | error e =>
        show _ + 0 - 0 = _ - 0
        omega

theorem Turns.moves {w w' : World} {o o' : Operation} (h : Turns w o w' o')
    (hfair : o.IsFair) : Moves w.metrics o w'.metrics o' := by
  cases h with
  | @step _ call call' conclude hstep => exact moves_step hstep conclude
  | @conclude call conclude result hphase =>
      have hsame : (running call conclude).isDue = (Call.Phase.ended result).isDue ∧
          (running call conclude).hasFailed = (Call.Phase.ended result).hasFailed := by
        rw [← hphase]
        exact ⟨rfl, rfl⟩
      obtain ⟨hdue, hfailed⟩ := hsame
      cases result with
      | error e =>
          constructor
          · rw [hdue]
            rfl
          · rw [hfailed]
            rfl
          · rfl
      | ok reply =>
          obtain ⟨hpending, hlost, hpresented⟩ := moves_ended (hfair reply w)
          constructor
          · rw [hdue]
            exact hpending
          · rw [hfailed]
            exact hlost
          · exact hpresented

end Operation

theorem balance_pending : operating.Balance (fun _ => True) Operation.IsFair
    (fun w => w.metrics.pending) Operation.isDue where
  join := fun h => (joins_operating h).1
  turn := fun _ hfair h => (h.moves hfair).pending
  befall := fun _ h => congrArg Metrics.pending h

theorem balance_lost : operating.Balance (fun _ => True) Operation.IsFair
    (fun w => w.metrics.lost) Operation.hasFailed where
  join := fun h => (joins_operating h).2.1
  turn := fun _ hfair h => (h.moves hfair).lost
  befall := fun _ h => congrArg Metrics.lost h

theorem balance_presented : operating.Balance (fun _ => True) Operation.IsFair
    (fun w => w.metrics.presented) Operation.hasHanded where
  join := fun h => (joins_operating h).2.2
  turn := fun _ hfair h => (h.moves hfair).presented
  befall := fun _ h => congrArg Metrics.presented h

namespace Metrics

def rise (counter : Metrics → Nat) (m m' : Metrics) : Int := counter m' - counter m

/-- When every operation has ended, the increases of the counters add up. -/
theorem rise_balance {w : World} {k : Crowd Operation} (h : Reaches operating ⟨w, []⟩ k)
    (hover : ∀ o ∈ k.members, o.IsOver) :
    rise attemptsTotal w.metrics k.world.metrics =
      rise operations w.metrics k.world.metrics + rise retries w.metrics k.world.metrics ∧
    rise failedAttemptsTotal w.metrics k.world.metrics =
      rise retries w.metrics k.world.metrics + k.members.countP Operation.hasFailed ∧
    rise siblingsObserved w.metrics k.world.metrics =
      rise conflictsResolved w.metrics k.world.metrics +
        rise conflictsUnresolved w.metrics k.world.metrics +
        k.members.countP Operation.hasHanded := by
  have hnone : k.members.countP Operation.isDue = 0 := by
    rw [List.countP_eq_zero]
    intro o ho
    obtain ⟨result, rfl⟩ := hover o ho
    exact Bool.false_ne_true
  have hpending := balance_pending.reaches keep_operating trivial h
  have hlost := balance_lost.reaches keep_operating trivial h
  have hpresented := balance_presented.reaches keep_operating trivial h
  rw [hnone] at hpending
  unfold pending at hpending
  unfold lost at hlost
  unfold presented at hpresented
  unfold rise
  omega

end Metrics

namespace Operation

variable {rules : Rules Operation} {k₀ : Crowd Operation} {w : World} {call : Call}
  {conclude : Reply → World → Except OperationError Bool × World}

theorem reaches_poll (hturn : rules.turn = Turns) (fuel : Nat)
    (h : Reaches rules k₀ ⟨w, [running call conclude]⟩) :
    Reaches rules k₀ ⟨(call.poll fuel w).1, [running (call.poll fuel w).2 conclude]⟩ := by
  induction fuel generalizing w call with
  | zero => exact h
  | succ fuel ih =>
      rw [Call.poll]
      cases hstep : call.step w with
      | none => exact h
      | some next =>
          have hnext : Next rules ⟨w, [] ++ running call conclude :: []⟩
              ⟨next.1, [] ++ running next.2 conclude :: []⟩ := by
            apply Next.turn
            rw [hturn]
            exact .step hstep
          exact ih (h.tail hnext)

theorem reaches_ended (hturn : rules.turn = Turns) {result : Except OperationError Reply}
    (fuel : Nat) (h : Reaches rules k₀ ⟨w, [running call conclude]⟩)
    (hended : (call.poll fuel w).2.phase = .ended result) :
    Reaches rules k₀ ⟨(Pending.outcome conclude result (call.poll fuel w).1).2,
      [ended (Pending.outcome conclude result (call.poll fuel w).1).1]⟩ := by
  have hnext : Next rules
      ⟨(call.poll fuel w).1, [] ++ running (call.poll fuel w).2 conclude :: []⟩
      ⟨(Pending.outcome conclude result (call.poll fuel w).1).2,
        [] ++ ended (Pending.outcome conclude result (call.poll fuel w).1).1 :: []⟩ := by
    apply Next.turn
    rw [hturn]
    exact .conclude hended
  exact (reaches_poll hturn fuel h).tail hnext

end Operation

/-- An engine that is down at first and then finds two versions. -/
def World.torn : World where
  now := 0
  backend := .script ⟨⟨[⟨.error (.unavailable "down"), some 0⟩,
    ⟨.ok (.fetched ⟨[⟨[7], 1, "s"⟩, ⟨[8], 2, "t"⟩], []⟩), some 0⟩], [], [], []⟩, []⟩
  chaos := .none
  pools := [.ofSize 1]
  metrics := {}
  events := []
  served := 0
  contexts := []
  removed := []
  nodes := []

/-- A fetch that tries again and then hands out siblings. -/
def Operation.patient : Pending Bool :=
  (Bucket.fetch ⟨"b", .bytes, Resolver.manual⟩ default "k"
    { OperationConfig.standard with backoff := .none, allowSiblings := true }).map handsOut

namespace Metrics

theorem rise_balance_torn : ∃ k, Reaches operating ⟨.torn, []⟩ k ∧
    rise retries World.torn.metrics k.world.metrics = 1 ∧
    rise attemptsTotal World.torn.metrics k.world.metrics =
      rise operations World.torn.metrics k.world.metrics + 1 ∧
    rise failedAttemptsTotal World.torn.metrics k.world.metrics = 1 ∧
    rise siblingsObserved World.torn.metrics k.world.metrics =
      rise conflictsResolved World.torn.metrics k.world.metrics +
        rise conflictsUnresolved World.torn.metrics k.world.metrics + 1 := by
  have hjoins : operating.joins Operation.patient.operation := ⟨_, .fetch _ _ _ _, rfl⟩
  have hfirst : Reaches operating ⟨.torn, []⟩ ⟨.torn, [.running _ _]⟩ := .single (.join hjoins)
  have hended : ((Client.call default (.fetch ⟨"b", "k"⟩) { OperationConfig.standard with
      backoff := .none, allowSiblings := true }).poll 24 .torn).2.phase =
      .ended (.ok (.fetched ⟨[⟨[7], 1, "s"⟩, ⟨[8], 2, "t"⟩], []⟩)) := rfl
  have hover := Operation.reaches_ended rfl 24 hfirst hended
  obtain ⟨hattempts, hfailed, hobserved⟩ := rise_balance hover (by simp [Operation.IsOver])
  refine ⟨_, hover, by decide +kernel, ?_, ?_, ?_⟩
  · rw [hattempts]
    decide +kernel
  · rw [hfailed]
    decide +kernel
  · rw [hobserved]
    decide +kernel

end Metrics

end SiblingStore
