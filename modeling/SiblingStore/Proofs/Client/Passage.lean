import SiblingStore.Proofs.Client.Steps
import Mathlib.Data.List.Nodup

/-!
# Calls at their pool

A call is apart from its pool, in the line for a permit or has one lent to it. Each of its
turns passes through the pool in one of a few ways, which move one permit at most: what they
keep of a pool and of its line, the calls keep in whatever order they have their turns.
-/

namespace SiblingStore

inductive Call.Place where
  | apart
  | inLine (ticket : Nat)
  | lent
  deriving DecidableEq

namespace Call

namespace Place

def ticket? : Place → Option Nat
  | inLine ticket => some ticket
  | apart | lent => none

def permits : Place → Int
  | lent => 1
  | apart | inLine _ => 0

end Place

def place (c : Call) : Place :=
  match c.phase with
  | .queued ticket _ => .inLine ticket
  | .working .. => .lent
  | .idle | .ready | .resting _ | .ended _ | .dropped => .apart

end Call

namespace Pool

open Call (Place)

def Standing.place : Standing → Place
  | held => .lent
  | waits ticket => .inLine ticket
  | refused => .apart

/-- The permits that are neither free nor set aside. -/
def out (p : Pool) : Int := p.size - p.free - p.granted.length

/-- Everyone who has a permit set aside, and then everyone else who waits. -/
def line (p : Pool) : List Nat := p.granted ++ p.waiting

/-- What a turn of a call can do with a pool and the call's place at it. -/
inductive Passes (p : Pool) : Place → Pool → Place → Prop where
  | stays {place : Place} : Passes p place p place
  | lends : p.closed = false → 0 < p.free → Passes p .apart { p with free := p.free - 1 } .lent
  | queues : p.closed = false → Passes p .apart
      { p with waiting := p.waiting ++ [p.nextTicket], nextTicket := p.nextTicket + 1 }
      (.inLine p.nextTicket)
  | serves {ticket : Nat} : p.closed = false → ticket ∈ p.granted →
      Passes p (.inLine ticket) { p with granted := p.granted.erase ticket } .lent
  | leaves {ticket : Nat} : Passes p (.inLine ticket) (p.leave ticket) .apart
  | returns : Passes p .lent p.release .apart

variable {p p' : Pool} {place place' : Place} {ticket : Nat}

theorem passes_request (p : Pool) : p.Passes .apart p.request.2 p.request.1.place := by
  unfold request
  split_ifs with hclosed hfree
  · exact .stays
  · exact .lends (by simpa using hclosed) hfree
  · exact .queues (by simpa using hclosed)

theorem passes_claim (p : Pool) (ticket : Nat) :
    p.Passes (.inLine ticket) (p.claim ticket).2 (p.claim ticket).1.place := by
  unfold claim
  split_ifs with hclosed hgranted
  · exact .leaves
  · exact .serves (by simpa using hclosed) hgranted
  · exact .stays

theorem request_of_closed (h : p.closed = true) : p.request = (.refused, p) := by
  unfold request
  rw [if_pos h]

theorem claim_of_closed (h : p.closed = true) (ticket : Nat) :
    p.claim ticket = (.refused, p.leave ticket) := by
  unfold claim
  rw [if_pos h]

/-! ## What each way of passing keeps -/

theorem out_release (p : Pool) : p.release.out = p.out - 1 := by
  unfold release out
  split
  · push_cast
    omega
  · dsimp only
    rw [List.length_append, List.length_singleton]
    push_cast
    omega

theorem out_leave (p : Pool) (ticket : Nat) : (p.leave ticket).out = p.out := by
  unfold leave
  split_ifs with hgranted
  · have hlength := List.length_erase_of_mem hgranted
    have hpos := List.length_pos_of_mem hgranted
    rw [out_release]
    unfold out
    dsimp only
    omega
  · rfl

theorem out_passes (h : p.Passes place p' place') :
    p'.out - place'.permits = p.out - place.permits := by
  cases h with
  | stays => rfl
  | lends _ hfree =>
      unfold out
      simp only [Place.permits]
      omega
  | queues => rfl
  | @serves ticket _ hgranted =>
      have hlength := List.length_erase_of_mem hgranted
      have hpos := List.length_pos_of_mem hgranted
      unfold out
      simp only [Place.permits]
      omega
  | leaves =>
      rw [out_leave]
      rfl
  | returns =>
      rw [out_release]
      simp only [Place.permits]
      omega

theorem eq_release (p : Pool) :
    p.release =
      { p with
        free := p.release.free
        waiting := p.release.waiting
        granted := p.release.granted } := by
  unfold release
  split <;> rfl

/-- Whoever leaves changes nothing but who has a permit and who waits for one. -/
theorem eq_leave (p : Pool) (ticket : Nat) :
    p.leave ticket =
      { p with
        free := (p.leave ticket).free
        waiting := (p.leave ticket).waiting
        granted := (p.leave ticket).granted } := by
  unfold leave
  split_ifs
  · exact eq_release _
  · rfl

theorem size_passes (h : p.Passes place p' place') : p'.size = p.size := by
  cases h with
  | stays | lends | queues | serves => rfl
  | leaves =>
      rw [eq_leave]
  | returns =>
      rw [eq_release]

theorem closed_passes (h : p.Passes place p' place') : p'.closed = p.closed := by
  cases h with
  | stays | lends | queues | serves => rfl
  | leaves =>
      rw [eq_leave]
  | returns =>
      rw [eq_release]

theorem line_release (p : Pool) : p.release.line = p.line := by
  unfold release line
  split
  · rfl
  · rename_i hwaiting
    rw [hwaiting, List.append_assoc, List.singleton_append]

theorem line_leave (p : Pool) (ticket : Nat) : (p.leave ticket).line = p.line.erase ticket := by
  have herase : p.line.erase ticket = if ticket ∈ p.granted then p.granted.erase ticket ++ p.waiting
      else p.granted ++ p.waiting.erase ticket := List.erase_append
  rw [herase]
  unfold leave
  split_ifs
  · exact line_release _
  · rfl

theorem mem_line_of_passes_apart (hnodup : p.line.Nodup) (h : p.Passes place p' .apart)
    (other : Nat) : other ∈ p'.line ↔ other ∈ p.line ∧ place ≠ .inLine other := by
  cases h with
  | stays => exact (and_iff_left (by simp)).symm
  | @leaves ticket =>
      rw [line_leave, hnodup.mem_erase_iff, and_comm]
      refine and_congr_right fun _ => not_congr ?_
      rw [Place.inLine.injEq]
      exact eq_comm
  | returns =>
      rw [line_release]
      exact (and_iff_left (by simp)).symm

/-! ## The line and those who stand in it -/

/-- Whether a pool's line consists of some of those with a ticket, each there once. -/
structure Lines (p : Pool) (tickets : List Nat) : Prop where
  line_nodup : p.line.Nodup
  line_subset : p.line ⊆ tickets
  tickets_nodup : tickets.Nodup
  lt_nextTicket : ∀ ticket ∈ tickets, ticket < p.nextTicket

theorem lines_perm {tickets tickets' : List Nat} (h : p.Lines tickets)
    (hperm : tickets.Perm tickets') : p.Lines tickets' where
  line_nodup := h.line_nodup
  line_subset := fun _ ht => hperm.mem_iff.1 (h.line_subset ht)
  tickets_nodup := hperm.nodup_iff.1 h.tickets_nodup
  lt_nextTicket := fun ticket ht => h.lt_nextTicket ticket (hperm.mem_iff.2 ht)

/-- Someone who leaves the line takes only the own ticket out of it. -/
theorem lines_erase {others : List Nat} (h : p.Lines (ticket :: others))
    (hline : p'.line = p.line.erase ticket) (hnext : p'.nextTicket = p.nextTicket) :
    p'.Lines others where
  line_nodup := by
    rw [hline]
    exact h.line_nodup.erase ticket
  line_subset := by
    intro other hother
    rw [hline, h.line_nodup.mem_erase_iff] at hother
    rcases List.mem_cons.1 (h.line_subset hother.2) with hsame | hmem
    · exact absurd hsame hother.1
    · exact hmem
  tickets_nodup := h.tickets_nodup.of_cons
  lt_nextTicket := by
    intro other hother
    rw [hnext]
    exact h.lt_nextTicket other (List.mem_cons_of_mem ticket hother)

theorem lines_concat {others : List Nat} (h : p.Lines others)
    (hline : p'.line = p.line.concat p.nextTicket) (hnext : p'.nextTicket = p.nextTicket + 1) :
    p'.Lines (p.nextTicket :: others) := by
  have hnew : p.nextTicket ∉ others := fun hmem => Nat.lt_irrefl _ (h.lt_nextTicket _ hmem)
  constructor
  · rw [hline]
    exact List.Nodup.concat (fun hmem => hnew (h.line_subset hmem)) h.line_nodup
  · intro other hother
    rw [hline, List.concat_eq_append] at hother
    rcases List.mem_append.1 hother with hmem | hmem
    · exact List.mem_cons_of_mem _ (h.line_subset hmem)
    · rw [List.mem_singleton.1 hmem]
      exact List.mem_cons_self
  · exact List.nodup_cons.2 ⟨hnew, h.tickets_nodup⟩
  · intro other hother
    rw [hnext]
    rcases List.mem_cons.1 hother with hsame | hmem
    · omega
    · have hlt := h.lt_nextTicket other hmem
      omega

theorem lines_passes {others : List Nat} (hlines : p.Lines (place.ticket?.toList ++ others))
    (h : p.Passes place p' place') : p'.Lines (place'.ticket?.toList ++ others) := by
  cases h with
  | stays => exact hlines
  | lends => exact ⟨hlines.1, hlines.2, hlines.3, hlines.4⟩
  | queues =>
      apply lines_concat hlines
      · show p.granted ++ (p.waiting ++ [p.nextTicket]) =
          (p.granted ++ p.waiting).concat p.nextTicket
        rw [List.concat_eq_append, List.append_assoc]
      · rfl
  | @serves ticket _ hgranted =>
      apply lines_erase hlines
      · show p.granted.erase ticket ++ p.waiting = (p.granted ++ p.waiting).erase ticket
        rw [List.erase_append_left _ hgranted]
      · rfl
  | @leaves ticket => exact lines_erase hlines (line_leave p ticket) (by rw [eq_leave])
  | returns =>
      have hline := line_release p
      have hnext : p.release.nextTicket = p.nextTicket := by rw [eq_release]
      constructor
      · rw [hline]
        exact hlines.line_nodup
      · rw [hline]
        exact hlines.line_subset
      · exact hlines.tickets_nodup
      · rw [hnext]
        exact hlines.lt_nextTicket

/-- Closing a pool sends away everyone for whom no permit is set aside. -/
theorem lines_close {tickets : List Nat} (h : p.Lines tickets) : p.close.Lines tickets := by
  have hline : p.close.line = p.granted := List.append_nil p.granted
  have hnodup := h.line_nodup
  unfold line at hnodup
  refine ⟨?_, ?_, h.tickets_nodup, h.lt_nextTicket⟩
  · rw [hline]
    exact (List.nodup_append.1 hnodup).1
  · rw [hline]
    intro ticket ht
    exact h.line_subset (List.mem_append_left _ ht)

/-- For every permit that is set aside there is one with a ticket for it. -/
theorem countP_granted {tickets : List Nat} (h : p.Lines tickets) :
    tickets.countP (fun ticket => decide (ticket ∈ p.granted)) = p.granted.length := by
  have hnodup := h.line_nodup
  unfold line at hnodup
  have hperm : (tickets.filter fun ticket => decide (ticket ∈ p.granted)).Perm p.granted := by
    rw [List.perm_ext_iff_of_nodup (h.tickets_nodup.filter _) (List.nodup_append.1 hnodup).1]
    intro ticket
    rw [List.mem_filter, decide_eq_true_iff]
    exact ⟨And.right, fun hmem => ⟨h.line_subset (List.mem_append_left _ hmem), hmem⟩⟩
  rw [List.countP_eq_length_filter]
  exact hperm.length_eq

end Pool

/-! ## Turns of calls -/

namespace World

variable {w : World} {i : Nat} {p : Pool}

theorem pool_of_getElem? (h : w.pools[i]? = some p) : w.pool i = p := by
  unfold pool
  rw [List.getD_eq_getElem?_getD, h]
  rfl

theorem getElem?_setPool (h : w.pools[i]? = some p) (q : Pool) :
    (w.setPool i q).pools[i]? = some q := by
  obtain ⟨hlength, -⟩ := List.getElem?_eq_some_iff.1 h
  exact List.getElem?_set_self hlength

end World

namespace Call

variable {w w' : World} {c c' : Call} {p : Pool}

theorem settle_pools (w : World) (c : Call) (result : Except EngineError Reply) :
    (settle w c result).1.pools = w.pools := by
  obtain ⟨metrics, events, h⟩ := settle_fst w c result
  rw [h]

theorem settle_place (w : World) (c : Call) (result : Except EngineError Reply) :
    (settle w c result).2.place = .apart := by
  unfold settle
  cases result with
  | ok reply => rfl
  | error e =>
      dsimp only
      split
      · rfl
      · split_ifs <;> rfl

theorem proceed_pools (w : World) (c : Call) (deadline : Nat) (standing : Pool.Standing) :
    (c.proceed w deadline standing).1.pools = w.pools := by
  cases standing <;> rfl

theorem proceed_place (w : World) (c : Call) (deadline : Nat) (standing : Pool.Standing) :
    (c.proceed w deadline standing).2.place = standing.place := by
  cases standing <;> rfl

def PassesTo (c : Call) (p : Pool) (next : World × Call) : Prop :=
  ∃ p', next.1.pools[c.pool]? = some p' ∧ p.Passes c.place p' next.2.place

theorem passesTo_settle (hpool : w.pools[c.pool]? = some p) {q : Pool}
    (h : p.Passes c.place q .apart) (result : Except EngineError Reply) :
    c.PassesTo p (settle (w.setPool c.pool q) c result) := by
  refine ⟨q, ?_, ?_⟩
  · rw [settle_pools]
    exact World.getElem?_setPool hpool q
  · rw [settle_place]
    exact h

theorem passesTo_proceed (hpool : w.pools[c.pool]? = some p) {q : Pool}
    {standing : Pool.Standing} (h : p.Passes c.place q standing.place) (deadline attempts : Nat) :
    c.PassesTo p
      (proceed (w.setPool c.pool q) { c with attempts := attempts } deadline standing) := by
  refine ⟨q, ?_, ?_⟩
  · rw [proceed_pools]
    exact World.getElem?_setPool hpool q
  · rw [proceed_place]
    exact h

theorem passesTo_of_takes {next : World × Call} (hpool : w.pools[c.pool]? = some p)
    (h : c.Takes w next) : c.PassesTo p next := by
  have hp := World.pool_of_getElem? hpool
  have hstays {next : World × Call} (hpools : next.1.pools = w.pools)
      (hplace : next.2.place = c.place) : c.PassesTo p next := by
    refine ⟨p, ?_, ?_⟩
    · rw [hpools]
      exact hpool
    · rw [hplace]
      exact .stays
  cases h with
  | begin hphase => exact hstays rfl (by simp [place, hphase])
  | request hphase =>
      have hpasses := p.passes_request
      rw [hp]
      apply passesTo_proceed (w := { w with metrics := w.metrics.addAttempts c.goal.kind.name 1 })
        hpool
      have hplace : c.place = .apart := by simp [place, hphase]
      rw [hplace]
      exact hpasses
  | @claim ticket deadline hphase =>
      have hplace : c.place = .inLine ticket := by simp [place, hphase]
      rw [hp]
      apply passesTo_proceed hpool _ deadline c.attempts
      rw [hplace]
      exact p.passes_claim ticket
  | @leave ticket deadline hphase =>
      have hplace : c.place = .inLine ticket := by simp [place, hphase]
      rw [hp]
      apply passesTo_settle hpool
      rw [hplace]
      exact .leaves
  | @fly flight flight' deadline _ hphase hstep =>
      have hframes := flight.frames_step w
      rw [hstep] at hframes
      exact hstays hframes.1 (by simp [place, hphase])
  | @receive flight deadline result w₁ hphase hstep =>
      have hframes := flight.frames_step w
      rw [hstep] at hframes
      have hplace : c.place = .lent := by simp [place, hphase]
      rcases receive_cases w₁ c deadline result with ⟨next, heq⟩ | heq
      · rw [heq]
        exact hstays hframes.1 (by simp [place, hphase])
      · have hpool₁ : w₁.pools[c.pool]? = some p := by
          rw [hframes.1]
          exact hpool
        rw [heq, release, World.pool_of_getElem? hpool₁]
        apply passesTo_settle hpool₁
        rw [hplace]
        exact .returns
  | late hphase =>
      have hplace : c.place = .lent := by simp [place, hphase]
      rw [release, hp]
      apply passesTo_settle hpool
      rw [hplace]
      exact .returns
  | wake hphase => exact hstays rfl (by simp [place, hphase])

/-- A call that is given up hands back what it holds and leaves the line. -/
theorem passesTo_drop (hpool : w.pools[c.pool]? = some p) : c.PassesTo p (c.drop w) := by
  have hp := World.pool_of_getElem? hpool
  unfold drop
  cases hphase : c.phase with
  | idle | ready | resting _ =>
      have hplace : c.place = .apart := by simp [place, hphase]
      refine ⟨p, hpool, ?_⟩
      rw [hplace]
      exact .stays
  | ended _ | dropped => exact ⟨p, hpool, .stays⟩
  | queued ticket deadline =>
      have hplace : c.place = .inLine ticket := by simp [place, hphase]
      refine ⟨p.leave ticket, ?_, ?_⟩
      · rw [hp]
        exact World.getElem?_setPool hpool _
      · rw [hplace]
        exact .leaves
  | working flight deadline =>
      have hplace : c.place = .lent := by simp [place, hphase]
      refine ⟨p.release, ?_, ?_⟩
      · rw [release, hp]
        exact World.getElem?_setPool hpool _
      · rw [hplace]
        exact .returns

theorem drop_cases (w : World) (c : Call) :
    (c.drop w).2.phase = .dropped ∨ ∃ result, c.phase = .ended result ∧ c.drop w = (w, c) := by
  unfold drop
  cases hphase : c.phase with
  | idle | ready | resting _ | queued _ _ | working _ _ => exact .inl rfl
  | dropped => exact .inl hphase
  | ended result => exact .inr ⟨result, rfl, rfl⟩

theorem place_drop (w : World) (c : Call) : (c.drop w).2.place = .apart := by
  unfold place
  rcases drop_cases w c with hphase | ⟨result, hphase, hdrop⟩
  · rw [hphase]
  · rw [hdrop, hphase]

theorem step_drop (w w' : World) (c : Call) : (c.drop w).2.step w' = none := by
  unfold step
  rcases drop_cases w c with hphase | ⟨result, hphase, hdrop⟩
  · rw [hphase]
  · rw [hdrop, hphase]

/-- At a closed pool a call that needs a permit ends as the client was closed. -/
theorem step_of_closed (hclosed : (w.pool c.pool).closed = true)
    (hphase : c.phase = .ready ∨ ∃ ticket deadline, c.phase = .queued ticket deadline) :
    ∃ w' c', c.step w = some (w', c') ∧ c'.phase = .ended (.error .closed) := by
  unfold step
  rcases hphase with hphase | ⟨ticket, deadline, hphase⟩
  · rw [hphase]
    dsimp only
    rw [Pool.request_of_closed]
    · exact ⟨_, _, rfl, rfl⟩
    · exact hclosed
  · rw [hphase]
    dsimp only
    rw [Pool.claim_of_closed hclosed ticket]
    exact ⟨_, _, rfl, rfl⟩

end Call

end SiblingStore
