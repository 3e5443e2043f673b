import SiblingStore.Client.Basic
import SiblingStore.Proofs.Client.Passage
import SiblingStore.Proofs.Simulation.Advance
import SiblingStore.Proofs.Simulation.Crowd

/-!
# Permits in circulation

The permits of a pool that are neither free nor set aside are those of the calls at work, and
those set aside belong one each to calls in the line. With the free ones they are all there
are, whoever joins, ends, is dropped or closes the pool in the meantime.
-/

namespace SiblingStore

/-- A call, and how many permits more its turns have taken from the pool than given back. -/
structure Borrower where
  call : Call
  taken : Int

namespace Borrower

/-- Whether a permit is lent to a call or set aside for it. -/
def holds (p : Pool) (b : Borrower) : Bool :=
  match b.call.place with
  | .apart => false
  | .inLine ticket => decide (ticket ∈ p.granted)
  | .lent => true

def IsOver (b : Borrower) : Prop :=
  (∃ result, b.call.phase = .ended result) ∨ b.call.phase = .dropped

def Rests (b : Borrower) : Prop := ∃ wake, b.call.phase = .resting wake

end Borrower

namespace Pool

open Crowd

/-- Operations of clients that share a pool begin at any time, and a turn takes one of them a
step further or gives it up. Anything may happen to the rest of the world in between, and any of
the clients may be closed. -/
def lending (i : Nat) : Rules Borrower where
  joins b := ∃ (client : Client) (goal : Goal) (config : OperationConfig), client.pool = i ∧
    b = ⟨client.call goal config, 0⟩
  turn w b w' b' := (b.call.step w = some (w', b'.call) ∨ b.call.drop w = (w', b'.call)) ∧
    b'.taken = b.taken + ((w'.pool i).out - (w.pool i).out)
  befalls w w' := w'.pools[i]? = w.pools[i]? ∨
    ∃ client : Client, client.pool = i ∧ w' = client.close w

/-- Whether a call draws on a pool and has taken as many permits as are lent to it. -/
def Draws (i : Nat) (b : Borrower) : Prop :=
  b.call.pool = i ∧ b.taken = b.call.place.permits

variable {i n : Nat} {w w' : World} {b b' : Borrower} {k k' : Crowd Borrower} {p : Pool}

theorem pool_of_turn (h : (lending i).turn w b w' b') : b'.call.pool = b.call.pool := by
  rcases h.1 with hstep | hdrop
  · rw [Call.eq_of_step hstep]
  · have hpool : (b.call.drop w).2.pool = b.call.pool := by
      unfold Call.drop
      dsimp only
      split <;> rfl
    rw [hdrop] at hpool
    exact hpool

theorem exists_passes (hpool : w.pools[i]? = some p) (hdraws : Draws i b)
    (h : (lending i).turn w b w' b') :
    ∃ p', w'.pools[i]? = some p' ∧ p.Passes b.call.place p' b'.call.place := by
  obtain ⟨rfl, -⟩ := hdraws
  rcases h.1 with hstep | hdrop
  · exact Call.passesTo_of_takes hpool (Call.takes_of_step hstep)
  · have hpasses := Call.passesTo_drop hpool
    rw [hdrop] at hpasses
    exact hpasses

theorem getElem?_close {client : Client} (hclient : client.pool = i)
    (hpool : w.pools[i]? = some p) : (client.close w).pools[i]? = some p.close := by
  subst hclient
  have hp : w.pool client.pool = p := World.pool_of_getElem? hpool
  unfold Client.close
  rw [hp]
  exact World.getElem?_setPool (w := w.tell _) hpool p.close

/-- What every way of passing through a pool and its closing keep, everyone who shares the
pool keeps. -/
theorem keep_lending {P : Pool → Prop}
    (hpasses : ∀ {p p' : Pool} {place place' : Call.Place}, P p → p.Passes place p' place' → P p')
    (hclose : ∀ {p : Pool}, P p → P p.close) :
    (lending i).Keep (fun w => ∃ p, w.pools[i]? = some p ∧ P p) (Draws i) where
  join := by
    rintro b ⟨client, goal, config, hclient, rfl⟩
    exact ⟨hclient, rfl⟩
  turn := by
    rintro w w' b b' ⟨p, hpool, hp⟩ hdraws hturn
    obtain ⟨p', hpool', hpass⟩ := exists_passes hpool hdraws hturn
    refine ⟨⟨p', hpool', hpasses hp hpass⟩, ?_, ?_⟩
    · rw [pool_of_turn hturn]
      exact hdraws.1
    · have hout := out_passes hpass
      rw [hturn.2, hdraws.2, World.pool_of_getElem? hpool, World.pool_of_getElem? hpool']
      omega
  befall := by
    rintro w w' ⟨p, hpool, hp⟩ (hsame | ⟨client, hclient, rfl⟩)
    · rw [hsame]
      exact ⟨p, hpool, hp⟩
    · exact ⟨p.close, getElem?_close hclient hpool, hclose hp⟩

theorem keep_size (i n : Nat) :
    (lending i).Keep (fun w => ∃ p, w.pools[i]? = some p ∧ p.size = n) (Draws i) :=
  keep_lending (fun hsize hpass => (size_passes hpass).trans hsize) fun hsize => hsize

theorem keep_closed (i : Nat) :
    (lending i).Keep (fun w => ∃ p, w.pools[i]? = some p ∧ p.closed = true) (Draws i) :=
  keep_lending (fun hclosed hpass => (closed_passes hpass).trans hclosed) fun _ => rfl

/-- The permits that are out rise and fall with the calls at work. -/
theorem balance_lending (i n : Nat) :
    (lending i).Balance (fun w => ∃ p, w.pools[i]? = some p ∧ p.size = n) (Draws i)
      (fun w => (w.pool i).out) fun b => decide (b.call.place = .lent) where
  join := by
    rintro b ⟨client, goal, config, -, rfl⟩
    rfl
  turn := by
    rintro w w' b b' ⟨p, hpool, -⟩ hdraws hturn
    obtain ⟨p', hpool', hpass⟩ := exists_passes hpool hdraws hturn
    have hout := out_passes hpass
    have hcount (place : Call.Place) : ((decide (place = .lent)).toNat : Int) = place.permits := by
      cases place <;> rfl
    show (w'.pool i).out - _ = (w.pool i).out - _
    rw [hcount, hcount, World.pool_of_getElem? hpool, World.pool_of_getElem? hpool']
    exact hout
  befall := by
    rintro w w' ⟨p, hpool, -⟩ (hsame | ⟨client, hclient, rfl⟩)
    · rw [World.pool_of_getElem? hpool, World.pool_of_getElem? (hsame.trans hpool)]
    · rw [World.pool_of_getElem? hpool, World.pool_of_getElem? (getElem?_close hclient hpool)]
      rfl

def tickets (bs : List Borrower) : List Nat := bs.filterMap fun b => b.call.place.ticket?

theorem tickets_perm (before after : List Borrower) (b : Borrower) :
    (tickets (before ++ b :: after)).Perm
      (b.call.place.ticket?.toList ++ tickets (before ++ after)) := by
  have hmiddle : (before ++ b :: after).Perm (b :: (before ++ after)) := List.perm_middle
  have hcons : tickets (b :: (before ++ after)) =
      b.call.place.ticket?.toList ++ tickets (before ++ after) := by
    unfold tickets
    rw [List.filterMap_cons]
    cases b.call.place.ticket? <;> rfl
  rw [← hcons]
  exact hmiddle.filterMap _

theorem lines_next (hpool : k.world.pools[i]? = some p) (hdraws : ∀ b ∈ k.members, Draws i b)
    (hlines : p.Lines (tickets k.members)) (h : Next (lending i) k k') :
    ∃ p', k'.world.pools[i]? = some p' ∧ p'.Lines (tickets k'.members) := by
  cases h with
  | join hjoins =>
      obtain ⟨client, goal, config, -, rfl⟩ := hjoins
      refine ⟨p, hpool, lines_perm hlines ?_⟩
      unfold tickets
      rw [List.filterMap_append]
      exact .of_eq (List.append_nil _).symm
  | @turn w w' before after b b' hturn =>
      obtain ⟨p', hpool', hpass⟩ := exists_passes hpool (hdraws b (by simp)) hturn
      have hothers := lines_perm hlines (tickets_perm before after b)
      have hlines' := lines_passes hothers hpass
      exact ⟨p', hpool', lines_perm hlines' (tickets_perm before after b').symm⟩
  | befall hbefalls =>
      rcases hbefalls with hsame | ⟨client, hclient, rfl⟩
      · exact ⟨p, hsame.trans hpool, hlines⟩
      · exact ⟨p.close, getElem?_close hclient hpool, lines_close hlines⟩

theorem lines_ofSize (n : Nat) : (ofSize n).Lines [] :=
  ⟨List.nodup_nil, fun _ h => h, List.nodup_nil, fun _ h => absurd h List.not_mem_nil⟩

theorem exists_lines (hpool : w.pools[i]? = some (.ofSize n))
    (h : Reaches (lending i) ⟨w, []⟩ k) :
    ∃ p, k.world.pools[i]? = some p ∧ p.Lines (tickets k.members) := by
  induction h with
  | refl => exact ⟨_, hpool, lines_ofSize n⟩
  | tail h hnext ih =>
      obtain ⟨p, hp, hlines⟩ := ih
      have hmembers := ((keep_size i _).reaches ⟨_, hpool, rfl⟩ (by simp) h).2
      exact lines_next hp hmembers hlines hnext

/-- Those who hold a permit are the calls at work and those for whom one is set aside. -/
theorem countP_holds {bs : List Borrower} (hlines : p.Lines (tickets bs)) :
    bs.countP (Borrower.holds p) =
      bs.countP (fun b => decide (b.call.place = .lent)) + p.granted.length := by
  have hgranted := countP_granted hlines
  unfold tickets at hgranted
  rw [List.countP_filterMap] at hgranted
  rw [← hgranted]
  clear hgranted hlines
  induction bs with
  | nil => rfl
  | cons b bs ih =>
      simp only [List.countP_cons]
      rw [ih]
      unfold Borrower.holds
      cases b.call.place with
      | apart => simp [Call.Place.ticket?]
      | inLine ticket => simp [Call.Place.ticket?]; omega
      | lent => simp [Call.Place.ticket?]; omega

theorem available_add_countP (hpool : w.pools[i]? = some (.ofSize n))
    (h : Reaches (lending i) ⟨w, []⟩ k) :
    (k.world.pool i).available + k.members.countP (Borrower.holds (k.world.pool i)) =
      (k.world.pool i).size := by
  obtain ⟨p, hp, hlines⟩ := exists_lines hpool h
  have hout := (balance_lending i _).reaches (keep_size i _) ⟨_, hpool, rfl⟩ h
  have hstart : (ofSize n).out = 0 := by
    unfold out ofSize
    simp
  rw [World.pool_of_getElem? hp, World.pool_of_getElem? hpool, hstart] at hout
  rw [World.pool_of_getElem? hp, countP_holds hlines]
  unfold out at hout
  unfold available
  omega

/-- Whether nobody gets a permit any more, and everyone who needs one is turned away. -/
structure Shut (i : Nat) (k : Crowd Borrower) : Prop where
  request : (k.world.pool i).request.1 = .refused
  claim : ∀ ticket, ((k.world.pool i).claim ticket).1 = .refused
  ends : ∀ b ∈ k.members,
    (b.call.phase = .ready ∨ ∃ ticket deadline, b.call.phase = .queued ticket deadline) →
    ∃ w' c', b.call.step k.world = some (w', c') ∧ c'.phase = .ended (.error .closed)

theorem shut_of_closed (hpool : k.world.pools[i]? = some p) (hclosed : p.closed = true)
    (hdraws : ∀ b ∈ k.members, Draws i b) : Shut i k := by
  have hp := World.pool_of_getElem? hpool
  constructor
  · rw [hp, request_of_closed hclosed]
  · intro ticket
    rw [hp, claim_of_closed hclosed]
  · intro b hb hphase
    apply Call.step_of_closed _ hphase
    rw [(hdraws b hb).1, hp]
    exact hclosed

theorem place_of_rests_or_isOver (h : b.Rests ∨ b.IsOver) : b.call.place = .apart := by
  unfold Call.place
  rcases h with ⟨wake, hphase⟩ | ⟨result, hphase⟩ | hphase
  · rw [hphase]
  · rw [hphase]
  · rw [hphase]

theorem holds_of_apart (h : b.call.place = .apart) (p : Pool) : b.holds p = false := by
  unfold Borrower.holds
  rw [h]

/-- What giving up a call that shares a pool with others comes to. Unless it had ended before it is
dropped; it takes no step any more, its permit is back, it alone has left the line, and all permits
are free or with the others. -/
structure Yields (i : Nat) (w : World) (b : Borrower) (others : List Borrower) : Prop where
  gone : (b.call.drop w).2.phase = .dropped ∨
    ∃ result, b.call.phase = .ended result ∧ b.call.drop w = (w, b.call)
  stops : ∀ w', (b.call.drop w).2.step w' = none
  out : ((b.call.drop w).1.pool i).out = (w.pool i).out - b.call.place.permits
  line : ∀ ticket, ticket ∈ ((b.call.drop w).1.pool i).line ↔
    ticket ∈ (w.pool i).line ∧ b.call.place ≠ .inLine ticket
  conserved : ((b.call.drop w).1.pool i).available +
      others.countP (Borrower.holds ((b.call.drop w).1.pool i)) =
    ((b.call.drop w).1.pool i).size

theorem exists_reaches_drop {k₀ : Crowd Borrower} (before after : List Borrower)
    (h : Reaches (lending i) k₀ ⟨w, before ++ b :: after⟩) :
    ∃ taken, Reaches (lending i) k₀
      ⟨(b.call.drop w).1, before ++ ⟨(b.call.drop w).2, taken⟩ :: after⟩ := by
  have hturn : (lending i).turn w b (b.call.drop w).1
      ⟨(b.call.drop w).2, b.taken + (((b.call.drop w).1.pool i).out - (w.pool i).out)⟩ :=
    ⟨.inr rfl, rfl⟩
  exact ⟨_, h.tail (.turn hturn)⟩

theorem yields_of_reaches {w₀ : World} {before after : List Borrower}
    (hpool : w₀.pools[i]? = some (.ofSize n))
    (h : Reaches (lending i) ⟨w₀, []⟩ ⟨w, before ++ b :: after⟩) :
    Yields i w b (before ++ after) := by
  obtain ⟨p, hp, hlines⟩ := exists_lines hpool h
  have hb : Draws i b := ((keep_size i _).reaches ⟨_, hpool, rfl⟩ (by simp) h).2 b (by simp)
  obtain ⟨p', hp', hpasses⟩ :=
    Call.passesTo_drop (w := w) (c := b.call) (p := p) (by rw [hb.1]; exact hp)
  rw [hb.1] at hp'
  rw [Call.place_drop] at hpasses
  obtain ⟨taken, hdropped⟩ := exists_reaches_drop before after h
  have hothers := available_add_countP hpool hdropped
  have hpool' := World.pool_of_getElem? hp'
  refine ⟨Call.drop_cases w b.call, fun w' => Call.step_drop w w' b.call, ?_, fun ticket => ?_, ?_⟩
  · have hout := out_passes hpasses
    rw [hpool', World.pool_of_getElem? hp]
    have happart : Call.Place.apart.permits = 0 := rfl
    omega
  · rw [hpool', World.pool_of_getElem? hp]
    exact mem_line_of_passes_apart hlines.line_nodup hpasses ticket
  · have hgone : Borrower.holds ((b.call.drop w).1.pool i) ⟨(b.call.drop w).2, taken⟩ = false :=
      holds_of_apart (Call.place_drop w b.call) _
    have hmiddle : (before ++ ⟨(b.call.drop w).2, taken⟩ :: after).countP
          (Borrower.holds ((b.call.drop w).1.pool i)) =
        (before ++ after).countP (Borrower.holds ((b.call.drop w).1.pool i)) := by
      rw [List.perm_middle.countP_eq, List.countP_cons_of_neg (by rw [hgone]; decide)]
    rw [← hmiddle]
    exact hothers

/-- Of a pool's permits each is free or held by one operation, and none by an operation that
rests, has ended or was dropped; dropping one gives back what it holds, and a pool that was closed
turns everyone away. -/
theorem permits_conserved (hpool : w.pools[i]? = some (.ofSize n))
    (h : Reaches (lending i) ⟨w, []⟩ k) :
    (k.world.pool i).size = max n 1 ∧
    (k.world.pool i).available + k.members.countP (Borrower.holds (k.world.pool i)) =
      (k.world.pool i).size ∧
    (∀ b ∈ k.members, b.taken = b.call.place.permits) ∧
    (∀ b ∈ k.members, b.Rests ∨ b.IsOver → b.taken = 0 ∧ b.holds (k.world.pool i) = false) ∧
    (∀ before b after, k.members = before ++ b :: after →
      Yields i k.world b (before ++ after)) ∧
    (∀ client : Client, client.pool = i →
      ∀ k', Reaches (lending i) ⟨client.close k.world, k.members⟩ k' → Shut i k') ∧
    ((∀ b ∈ k.members, b.IsOver) → (k.world.pool i).available = (k.world.pool i).size) := by
  obtain ⟨⟨p, hp, hsize⟩, hdraws⟩ := (keep_size i (max n 1)).reaches ⟨_, hpool, rfl⟩ (by simp) h
  have hcount := available_add_countP hpool h
  refine ⟨?_, hcount, fun b hb => (hdraws b hb).2, ?_, ?_, ?_, ?_⟩
  · rw [World.pool_of_getElem? hp]
    exact hsize
  · intro b hb hidle
    have hplace := place_of_rests_or_isOver hidle
    constructor
    · rw [(hdraws b hb).2, hplace]
      rfl
    · exact holds_of_apart hplace _
  · intro before b after hmembers
    apply yields_of_reaches hpool
    rw [← hmembers]
    exact h
  · intro client hclient k' hreaches
    have hclosed : ∃ p, (client.close k.world).pools[i]? = some p ∧ p.closed = true :=
      ⟨p.close, getElem?_close hclient hp, rfl⟩
    obtain ⟨⟨p', hp', hclosed'⟩, hdraws'⟩ := (keep_closed i).reaches
      (k := ⟨client.close k.world, k.members⟩) hclosed hdraws hreaches
    exact shut_of_closed hp' hclosed' hdraws'
  · intro hover
    have hnone : k.members.countP (Borrower.holds (k.world.pool i)) = 0 := by
      rw [List.countP_eq_zero]
      intro b hb
      rw [holds_of_apart (place_of_rests_or_isOver (.inr (hover b hb)))]
      exact Bool.false_ne_true
    omega

/-- A member of the crowd takes as many steps as it can, and then others have their turn. -/
theorem exists_reaches_poll {k₀ : Crowd Borrower} (fuel : Nat) (before after : List Borrower)
    (h : Reaches (lending i) k₀ ⟨w, before ++ b :: after⟩) :
    ∃ taken, Reaches (lending i) k₀
      ⟨(b.call.poll fuel w).1, before ++ ⟨(b.call.poll fuel w).2, taken⟩ :: after⟩ := by
  induction fuel generalizing w b with
  | zero => exact ⟨b.taken, h⟩
  | succ fuel ih =>
      rw [Call.poll]
      cases hstep : b.call.step w with
      | none => exact ⟨b.taken, h⟩
      | some next => exact ih (b := ⟨next.2, _⟩) (h.tail (.turn ⟨.inl hstep, rfl⟩))

end Pool

/-- A world with a single permit, and an engine that is out of reach when it is asked first. -/
def World.narrow : World :=
  { World.ofBackend (.script ⟨⟨[], [], [], [⟨.error (.unavailable "d"), some 0⟩]⟩, []⟩) .none with
    pools := [.ofSize 1] }

namespace Pool

open Crowd

/-- Three operations want the only permit. The second is dropped where it waits and the first at
work; the third then has its turn, which fails, and rests. Of two more one is at work and one waits
when the client is closed: that one, the next to come and the one that rested are turned away. -/
theorem reaches_narrow :
    ∃ k k' : Crowd Borrower, Reaches (lending 0) ⟨.narrow, []⟩ k ∧
      k.members.map (fun b => b.call.place) = [.lent, .inLine 0, .inLine 1] ∧
      Reaches (lending 0) k k' ∧
      k'.members.map (fun b => b.call.phase) =
        [.dropped, .dropped, .ended (.error .closed), .ended (.ok (.keys [])),
          .ended (.error .closed), .ended (.error .closed)] := by
  have hjoins : (lending 0).joins ⟨(default : Client).call (.keys "b") .standard, 0⟩ :=
    ⟨default, _, _, rfl, rfl⟩
  have hfirst : Reaches (lending 0) ⟨.narrow, []⟩ ⟨.narrow, [] ++ _ :: []⟩ :=
    .single (.join hjoins)
  obtain ⟨_, hlent⟩ := exists_reaches_poll 2 [] [] hfirst
  have hsecond : Reaches (lending 0) ⟨.narrow, []⟩ ⟨_, [_] ++ _ :: []⟩ :=
    hlent.tail (.join hjoins)
  obtain ⟨_, hwaits⟩ := exists_reaches_poll 2 [_] [] hsecond
  have hthird : Reaches (lending 0) ⟨.narrow, []⟩ ⟨_, [_, _] ++ _ :: []⟩ :=
    hwaits.tail (.join hjoins)
  obtain ⟨_, hwait⟩ := exists_reaches_poll 2 [_, _] [] hthird
  -- From here on the calls are given up, take their turns and meet the closed pool.
  obtain ⟨_, hleft⟩ := exists_reaches_drop [_] [_] (.refl : Reaches _ ⟨_, _⟩ _)
  obtain ⟨_, hfreed⟩ := exists_reaches_drop [] [_, _] hleft
  obtain ⟨_, hrests⟩ := exists_reaches_poll 4 [_, _] [] hfreed
  obtain ⟨_, hworks⟩ := exists_reaches_poll 2 [_, _, _] [] (hrests.tail (.join hjoins))
  obtain ⟨_, hqueued⟩ := exists_reaches_poll 2 [_, _, _, _] [] (hworks.tail (.join hjoins))
  obtain ⟨_, hrefused⟩ := exists_reaches_poll 4 [_, _, _, _] []
    (hqueued.tail (.befall (.inr ⟨default, rfl, rfl⟩)))
  obtain ⟨_, hlate⟩ := exists_reaches_poll 4 [_, _, _, _, _] [] (hrefused.tail (.join hjoins))
  obtain ⟨_, hended⟩ := exists_reaches_poll 4 [_, _, _] [_, _] hlate
  have hawake : Reaches (lending 0) _ ⟨{ (_ : World) with now := 1000000 }, _⟩ :=
    hended.tail (.befall (.inl rfl))
  obtain ⟨_, hover⟩ := exists_reaches_poll 4 [_, _] [_, _, _] hawake
  refine ⟨_, _, hwait, rfl, hover, ?_⟩
  show [_, _, _, _, _, _] = _
  simp only [List.cons.injEq, and_true]
  exact ⟨rfl, rfl, rfl, rfl, rfl, rfl⟩

theorem permits_conserved_narrow :
    ∃ k k' : Crowd Borrower, Reaches (lending 0) ⟨.narrow, []⟩ k ∧
      k.members.map (fun b => b.call.place) = [.lent, .inLine 0, .inLine 1] ∧
      Reaches (lending 0) k k' ∧
      k'.members.map (fun b => b.call.phase) =
        [.dropped, .dropped, .ended (.error .closed), .ended (.ok (.keys [])),
          .ended (.error .closed), .ended (.error .closed)] ∧
      (k'.world.pool 0).available = (k'.world.pool 0).size := by
  obtain ⟨k, k', h, hplaces, h', hphases⟩ := reaches_narrow
  have hover : ∀ b ∈ k'.members, b.IsOver := by
    intro b hb
    have hmem := List.mem_map_of_mem (f := fun b : Borrower => b.call.phase) hb
    rw [hphases] at hmem
    simp only [List.mem_cons, List.not_mem_nil, or_false] at hmem
    rcases hmem with hphase | hphase | hphase | hphase | hphase | hphase
    · exact .inr hphase
    · exact .inr hphase
    all_goals exact .inl ⟨_, hphase⟩
  exact ⟨k, k', h, hplaces, h', hphases,
    (permits_conserved rfl (h.trans h')).2.2.2.2.2.2 hover⟩

end Pool

end SiblingStore
