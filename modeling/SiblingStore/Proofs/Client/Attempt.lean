import SiblingStore.Proofs.Client.Calls
import SiblingStore.Proofs.Client.Course
import SiblingStore.Proofs.Client.Steps
import SiblingStore.Proofs.Simulation.Advance

/-!
# One attempt

An attempt that finds a connection free sends its request, or its two requests, and
waits for the reply until it comes or the attempt's time is over. It takes the course
that the script has for it, and its connection goes back.
-/

namespace SiblingStore

/-! ## What a call meets -/

structure Pool.Lends (p : Pool) : Prop where
  opened : p.closed = false
  free : 0 < p.free
  unclaimed : p.waiting = []

theorem Pool.Lends.request_eq {p : Pool} (h : p.Lends) :
    p.request = (.held, { p with free := p.free - 1 }) := by
  unfold Pool.request
  rw [h.opened, if_neg (by simp), if_pos h.free]

theorem Pool.Lends.release_request {p : Pool} (h : p.Lends) : p.request.2.release = p := by
  rw [h.request_eq]
  unfold Pool.release
  dsimp only
  rw [h.unclaimed]
  dsimp only
  rw [Nat.sub_add_cancel h.free]
  cases p
  cases h.unclaimed
  rfl

/-- What a call meets that has a scripted engine to itself, and how many attempts of its
kind have been counted. -/
structure World.Meets (w : World) (kind : RequestKind) (now : Nat) (s : Script)
    (pools : List Pool) (made : Nat) : Prop where
  now_eq : w.now = now
  backend : w.backend = .script s
  quiet : w.chaos.Quiet
  pools_eq : w.pools = pools
  made_eq : w.metrics.attemptsOf kind = made

variable {w : World} {c : Call} {kind : RequestKind} {now made : Nat} {s : Script}
  {pools : List Pool}

namespace World

theorem Meets.congr {w' : World} (h : w.Meets kind now s pools made) (hnow : w'.now = w.now)
    (hbackend : w'.backend = w.backend) (hchaos : w'.chaos = w.chaos)
    (hpools : w'.pools = w.pools) (hattempts : w'.metrics.attempts = w.metrics.attempts) :
    w'.Meets kind now s pools made where
  now_eq := hnow.trans h.now_eq
  backend := hbackend.trans h.backend
  quiet := hchaos ▸ h.quiet
  pools_eq := hpools.trans h.pools_eq
  made_eq := by
    rw [← h.made_eq, Metrics.attemptsOf, Metrics.attemptsOf, hattempts]

theorem Meets.pass (h : w.Meets kind now s pools made) (time : Nat) :
    { w with now := time }.Meets kind time s pools made :=
  ⟨rfl, h.backend, h.quiet, h.pools_eq, h.made_eq⟩

theorem Meets.count (h : w.Meets kind now s pools made) (counter : Counter) :
    (w.count counter).Meets kind now s pools made :=
  h.congr rfl rfl rfl rfl (by cases counter <;> rfl)

theorem Meets.setPool (h : w.Meets kind now s pools made) (i : Nat) (p : Pool) :
    (w.setPool i p).Meets kind now s (pools.set i p) made :=
  ⟨h.now_eq, h.backend, h.quiet, congrArg (List.set · i p) h.pools_eq, h.made_eq⟩

theorem Meets.addAttempts (h : w.Meets kind now s pools made) :
    { w with metrics := w.metrics.addAttempts kind.name 1 }.Meets kind now s pools (made + 1) where
  now_eq := h.now_eq
  backend := h.backend
  quiet := h.quiet
  pools_eq := h.pools_eq
  made_eq := by
    rw [← h.made_eq]
    unfold Metrics.attemptsOf Metrics.addAttempts
    rw [Ordered.Map.find?_alter_self]
    rfl

theorem Meets.serve (h : w.Meets kind now s pools made) (r : Request) :
    (w.serve r).1 = (s.ask r).1 ∧ (w.serve r).2.Meets kind now (s.ask r).2 pools made := by
  unfold World.serve Backend.serve
  rw [h.backend]
  exact ⟨rfl, h.now_eq, rfl, h.quiet, h.pools_eq, h.made_eq⟩

theorem Meets.after_eq (h : w.Meets kind now s pools made) (millis : Nat) :
    w.after millis = now + wait millis := by
  rw [← h.now_eq]
  rfl

end World

namespace Call

/-! ## Waiting for a reply -/

variable {flight : Flight} {deadline : Nat}

theorem leads_arrival {result : Except EngineError Reply} {time : Nat}
    (hphase : c.phase = .working flight deadline)
    (hstage : flight.stage = .answering result (some time)) (hnow : w.now ≤ time)
    (htime : time ≤ deadline) :
    Leads 2 w c (receive { w with now := time } c deadline result) := by
  have hwakes : c.wakes = some time := by
    simp only [wakes, hphase, Flight.wakes, hstage]
    rw [Nat.min_eq_left htime]
  have hwait : Leads 1 w c ({ w with now := time }, c) := by
    refine leads_to hwakes hnow fun hlt => step_waits hphase ?_ (by omega)
    simp [Flight.step, Flight.due, hstage, hlt]
  refine hwait.trans (leads_of_step (step_arrives hphase ?_))
  simp [Flight.step, Flight.due, hstage]

theorem leads_deadline {result : Except EngineError Reply} {wake : Option Nat}
    (hphase : c.phase = .working flight deadline)
    (hstage : flight.stage = .answering result wake) (hnow : w.now ≤ deadline)
    (hlate : ∀ time, wake = some time → deadline < time) :
    Leads 2 w c (receive { w with now := deadline } c deadline c.timeout) := by
  have hwaits : ∀ now ≤ deadline, flight.step { w with now := now } = .waits := by
    intro now hle
    cases wake with
    | none => simp [Flight.step, Flight.due, hstage]
    | some time =>
        have hlt : now < time := Nat.lt_of_le_of_lt hle (hlate time rfl)
        simp [Flight.step, Flight.due, hstage, hlt]
  have hwakes : c.wakes = some deadline := by
    simp only [wakes, hphase, Flight.wakes, hstage]
    cases wake with
    | none => rfl
    | some time =>
        dsimp only
        rw [Nat.min_eq_right (Nat.le_of_lt (hlate time rfl))]
  have hwait : Leads 1 w c ({ w with now := deadline }, c) :=
    leads_to hwakes hnow fun hlt => step_waits hphase (hwaits w.now hnow) hlt
  refine hwait.trans (leads_of_step (step_late hphase ?_ (Nat.le_refl _)))
  exact hwaits deadline (Nat.le_refl _)

theorem leads_answering (h : w.Meets kind now s pools made) (c : Call) (r : Request)
    (course : Course) (left : Nat) :
    ∃ w', w'.Meets kind (now + course.spent left) s pools made ∧
      Leads 2 w { c with phase := .working ⟨r, .answering course.result
          (course.lasts.map (now + ·))⟩ (now + left) }
        (receive w' c (now + left) (course.outcome left (.timeout c.config.attemptTimeout))) := by
  have hnow := h.now_eq
  by_cases hends : course.endsBy left = true
  · obtain ⟨d, hd, hle⟩ := Course.endsBy_iff.1 hends
    rw [Course.outcome, if_pos hends, Course.spent_of_endsBy hd hle, hd]
    refine ⟨{ w with now := now + d }, h.pass _, ?_⟩
    rw [← receive_phase]
    exact leads_arrival rfl rfl (by omega) (by omega)
  · rw [Course.outcome, if_neg hends, Course.spent_of_not_endsBy hends]
    refine ⟨{ w with now := now + left }, h.pass _, ?_⟩
    rw [← receive_phase]
    refine leads_deadline rfl rfl (by omega) fun time htime => ?_
    obtain ⟨d, hd, rfl⟩ := Option.map_eq_some_iff.1 htime
    have hlt : ¬ d ≤ left := fun hle => hends (Course.endsBy_iff.2 ⟨d, hd, hle⟩)
    omega

/-- A request comes back with its reply, or is given up at the deadline. -/
theorem leads_request (h : w.Meets kind now s pools made) (c : Call) (r : Request) (left : Nat) :
    ∃ w', w'.Meets kind (now + (Course.ofReply (s.ask r).1).spent left) (s.ask r).2 pools made ∧
      Leads 4 w { c with phase := .working (.start r) (now + left) }
        (receive w' c (now + left)
          ((Course.ofReply (s.ask r).1).outcome left (.timeout c.config.attemptTimeout))) := by
  have hcounted : { w with chaos := w.chaos.count r.kind }.Meets kind now s pools made :=
    ⟨h.now_eq, h.backend, h.quiet.count _, h.pools_eq, h.made_eq⟩
  have henters : Leads 1 w { c with phase := .working (.start r) (now + left) }
      ({ w with chaos := w.chaos.count r.kind },
        { c with phase := .working ⟨r, .reaching false⟩ (now + left) }) :=
    leads_of_step (step_moves rfl (Flight.step_entering h.quiet rfl))
  obtain ⟨hreply, hserved⟩ := hcounted.serve r
  by_cases hdelay : (s.ask r).1.delay = some 0
  · have hlasts : (Course.ofReply (s.ask r).1).lasts = some 0 := by
      unfold Course.ofReply
      rw [hdelay]
      rfl
    rw [Course.outcome, if_pos (Course.endsBy_iff.2 ⟨0, hlasts, Nat.zero_le _⟩),
      Course.spent_of_endsBy hlasts (Nat.zero_le _)]
    refine ⟨_, hserved, (henters.trans (leads_of_step ?_)).mono (by omega)⟩
    rw [← receive_phase _ c (.working ⟨r, .reaching false⟩ (now + left))]
    refine step_arrives rfl (Flight.step_reaching hcounted.quiet rfl ?_)
    rw [hreply, ← hdelay]
    rfl
  · have hreaches : Flight.step ⟨r, .reaching false⟩ { w with chaos := w.chaos.count r.kind } =
        .moves ⟨r, .answering (s.ask r).1.result
          ((Course.ofReply (s.ask r).1).lasts.map (now + ·))⟩
          (World.serve { w with chaos := w.chaos.count r.kind } r).2 := by
      rw [Flight.step_eq_reach hcounted.quiet rfl]
      unfold Flight.reach
      dsimp only
      rw [hreply, if_neg hdelay, Course.ofReply, Option.map_map]
      congr
      funext millis
      exact hserved.after_eq millis
    obtain ⟨w', hmeets, hanswers⟩ := leads_answering hserved c r (.ofReply (s.ask r).1) left
    have hserves := leads_of_step (step_moves
      (c := { c with phase := .working ⟨r, .reaching false⟩ (now + left) }) rfl hreaches)
    exact ⟨w', hmeets, (henters.trans (hserves.trans hanswers)).mono (by omega)⟩

/-! ## One attempt -/

theorem followUp_eq_some {first : Course} {next : Request} (h : c.followUp first = some next) :
    ∃ d ≤ c.limit, ∃ reply, first.lasts = some d ∧ first.result = .ok reply ∧
      c.nextRequest reply = some next := by
  unfold followUp at h
  split_ifs at h with hends
  obtain ⟨d, hd, hle⟩ := Course.endsBy_iff.1 hends
  cases hresult : first.result with
  | error e =>
      rw [hresult] at h
      cases h
  | ok reply =>
      rw [hresult] at h
      exact ⟨d, hle, reply, hd, rfl, h⟩

theorem nextRequest_of_followUp {first : Course} {reply : Reply} {late : EngineError}
    (h : c.followUp first = none) (hreply : first.outcome c.limit late = .ok reply) :
    c.nextRequest reply = none := by
  unfold Course.outcome at hreply
  split_ifs at hreply with hends
  unfold followUp at h
  rw [if_pos hends, hreply] at h
  exact h

theorem kind_of_nextRequest {reply : Reply} {next : Request}
    (h : c.nextRequest reply = some next) : next.kind = .put := by
  unfold nextRequest at h
  split at h
  · injection h with h
    rw [← h]
    rfl
  · cases h

theorem nextRequest_of_kind {reply : Reply} (h : reply.kind = .put) :
    c.nextRequest reply = none := by
  cases reply with
  | put reply => cases hgoal : c.goal <;> simp only [nextRequest, hgoal]
  | fetched _ | deleted | keys _ => cases h

theorem receive_of_nextRequest {deadline : Nat} {result : Except EngineError Reply}
    (h : ∀ reply, result = .ok reply → c.nextRequest reply = none) :
    receive w c deadline result = settle (release w c) c result := by
  cases result with
  | error e => rfl
  | ok reply =>
      unfold receive
      dsimp only
      rw [h reply rfl]

theorem release_meets (hlends : (pools.getD c.pool default).Lends)
    (h : w.Meets kind now s (pools.set c.pool (pools.getD c.pool default).request.2) made) :
    (release w c).Meets kind now s pools made := by
  refine ⟨h.now_eq, h.backend, h.quiet, ?_, h.made_eq⟩
  change w.pools.set c.pool (w.pools.getD c.pool default).release = pools
  rw [h.pools_eq, List.set_set]
  by_cases hi : c.pool < pools.length
  · rw [List.getD_eq_getElem?_getD, List.getElem?_set_self hi, Option.getD_some,
      hlends.release_request, List.getD_eq_getElem?_getD, List.getElem?_eq_getElem hi,
      Option.getD_some, List.set_getElem_self]
  · rw [List.set_eq_of_length_le (by omega)]

/-- An attempt that holds a connection takes its course until it ends or is cut off. -/
theorem leads_working (htyped : s.Typed) (hlends : (pools.getD c.pool default).Lends)
    (h : w.Meets kind now s (pools.set c.pool (pools.getD c.pool default).request.2) made) :
    ∃ w', w'.Meets kind (now + (c.course s).1.spent c.limit) (c.course s).2 pools made ∧
      Leads 8 w { c with phase := .working (.start c.firstRequest) (now + c.limit) }
        (settle w' c ((c.course s).1.outcome c.limit (.timeout c.config.attemptTimeout))) := by
  obtain ⟨w₁, hmeets₁, hfirst⟩ := leads_request h c c.firstRequest c.limit
  unfold course
  dsimp only
  cases hfollow : c.followUp (.ofReply (s.ask c.firstRequest).1) with
  | none =>
      rw [receive_of_nextRequest fun reply => nextRequest_of_followUp hfollow] at hfirst
      exact ⟨_, release_meets hlends hmeets₁, hfirst.mono (by omega)⟩
  | some next =>
      obtain ⟨d, hle, reply, hd, hresult, hnext⟩ := followUp_eq_some hfollow
      have hends : (Course.ofReply (s.ask c.firstRequest).1).endsBy c.limit = true :=
        Course.endsBy_iff.2 ⟨d, hd, hle⟩
      -- the write has as much time as the read has left of the attempt's
      rw [Course.spent_of_endsBy hd hle] at hmeets₁
      rw [Course.outcome, if_pos hends, hresult] at hfirst
      obtain ⟨w₂, hmeets₂, hsecond⟩ := leads_request hmeets₁ c next (c.limit - d)
      rw [Nat.add_assoc, Nat.add_sub_of_le hle] at hsecond
      rw [Nat.add_assoc] at hmeets₂
      rw [Course.spent_andThen hd hle, Course.outcome_andThen hd hle]
      have hnext' : receive w₁ c (now + c.limit) (.ok reply) =
          (w₁, { c with phase := .working (.start next) (now + c.limit) }) := by
        unfold receive
        dsimp only
        rw [hnext]
      rw [hnext'] at hfirst
      rw [receive_of_nextRequest fun reply' hreply' => ?_] at hsecond
      · exact ⟨_, release_meets hlends hmeets₂, hfirst.trans hsecond⟩
      · unfold Course.outcome at hreply'
        split_ifs at hreply'
        apply nextRequest_of_kind
        rw [(htyped.ask c.firstRequest).kind_eq hreply', kind_of_nextRequest hnext]

theorem leads_attempt (htyped : s.Typed) (hlends : (pools.getD c.pool default).Lends)
    (h : w.Meets c.goal.kind now s pools made) (hphase : c.phase = .ready) :
    ∃ w', w'.Meets c.goal.kind (now + (c.course s).1.spent c.limit) (c.course s).2 pools
        (made + 1) ∧
      Leads 9 w c (settle w' { c with attempts := c.attempts + 1 }
        ((c.course s).1.outcome c.limit (.timeout c.config.attemptTimeout))) := by
  have hpool : w.pool c.pool = pools.getD c.pool default := by rw [World.pool, h.pools_eq]
  have hlent := h.addAttempts.setPool c.pool (w.pool c.pool).request.2
  have hstep : c.step w = some
      (World.setPool { w with metrics := w.metrics.addAttempts c.goal.kind.name 1 } c.pool
        (w.pool c.pool).request.2,
      { c with attempts := c.attempts + 1,
               phase := .working (.start c.firstRequest) (now + c.limit) }) := by
    have hrequest : (w.pool c.pool).request.1 = .held := by
      rw [hpool, hlends.request_eq]
    unfold step
    rw [hphase]
    dsimp only
    change some (proceed (World.setPool { w with metrics := _ } c.pool (w.pool c.pool).request.2)
      _ (World.after { w with metrics := _ } _) (w.pool c.pool).request.1) = _
    rw [hrequest, h.addAttempts.after_eq]
    rfl
  rw [hpool] at hlent hstep
  obtain ⟨w', hmeets, hworks⟩ :=
    leads_working (c := { c with attempts := c.attempts + 1 }) htyped hlends hlent
  exact ⟨w', hmeets, (leads_of_step hstep).trans hworks⟩

end Call

end SiblingStore
