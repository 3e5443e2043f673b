import SiblingStore.Client.Basic
import Mathlib.Tactic.SplitIfs

/-!
# Courses of attempts

A script says how every attempt of a call goes if nobody cuts it off. What attempts
end with and how long they take follows from their courses and the limit of time.
-/

namespace SiblingStore

/-! ## Courses of attempts -/

def World.wait (millis : Nat) : Nat := min millis World.longestWait

/-- How an attempt goes that nobody cuts off. -/
structure Course where
  result : Except EngineError Reply
  /-- Milliseconds until it ends; without any it never does. -/
  lasts : Option Nat

namespace Course

def ofReply (reply : ScriptedReply) : Course := ⟨reply.result, reply.delay.map World.wait⟩

def andThen (first second : Course) : Course :=
  ⟨second.result, first.lasts.bind fun d => second.lasts.map fun d' => d + d'⟩

/-- Whether it ends within a limit; what ends at the limit does. -/
def endsBy (course : Course) (limit : Nat) : Bool := course.lasts.any fun d => d ≤ limit

def outcome (course : Course) (limit : Nat) (late : EngineError) : Except EngineError Reply :=
  if course.endsBy limit then course.result else .error late

def spent (course : Course) (limit : Nat) : Nat :=
  match course.lasts with
  | some d => min d limit
  | none => limit

variable {course : Course} {limit : Nat}

theorem endsBy_iff : course.endsBy limit = true ↔ ∃ d, course.lasts = some d ∧ d ≤ limit := by
  simp [endsBy, Option.any_eq_true]

theorem spent_of_endsBy {d : Nat} (hd : course.lasts = some d) (hle : d ≤ limit) :
    course.spent limit = d := by
  unfold spent
  rw [hd]
  exact Nat.min_eq_left hle

theorem spent_of_not_endsBy (h : course.endsBy limit ≠ true) : course.spent limit = limit := by
  unfold spent
  split
  · rename_i d hd
    apply Nat.min_eq_right
    apply Nat.le_of_not_le
    intro hle
    exact h (endsBy_iff.2 ⟨d, hd, hle⟩)
  · rfl

theorem spent_andThen {first : Course} {d : Nat} (hd : first.lasts = some d) (hle : d ≤ limit)
    (second : Course) : (first.andThen second).spent limit = d + second.spent (limit - d) := by
  unfold andThen spent
  rw [hd]
  cases second.lasts with
  | none => exact (Nat.add_sub_of_le hle).symm
  | some d' =>
      dsimp only [Option.bind_some, Option.map_some]
      omega

theorem outcome_andThen {first : Course} {d : Nat} (hd : first.lasts = some d) (hle : d ≤ limit)
    (second : Course) (late : EngineError) :
    (first.andThen second).outcome limit late = second.outcome (limit - d) late := by
  have hends : (first.andThen second).endsBy limit = second.endsBy (limit - d) := by
    unfold andThen endsBy
    rw [hd]
    cases second.lasts with
    | none => rfl
    | some d' =>
        simp only [Option.bind_some, Option.map_some, Option.any_some, decide_eq_decide]
        omega
  unfold outcome
  rw [hends]
  rfl

end Course

namespace Call

def limit (c : Call) : Nat := World.wait c.config.attemptTimeout.ceilMillis

def rest (c : Call) (retry : Nat) : Nat := World.wait (c.config.backoff.delay retry).ceilMillis

/-- The request that follows the first one within an attempt, if that is answered in time. -/
def followUp (c : Call) (first : Course) : Option Request :=
  if first.endsBy c.limit then first.result.toOption.bind c.nextRequest else none

/-- The course an attempt takes by a script, and what it leaves of the script. -/
def course (c : Call) (s : Script) : Course × Script :=
  let (reply, s) := s.ask c.firstRequest
  match c.followUp (.ofReply reply) with
  | none => (.ofReply reply, s)
  | some next =>
    let (second, s) := s.ask next
    ((Course.ofReply reply).andThen (.ofReply second), s)

def scriptAt (c : Call) (s : Script) : Nat → Script
  | 0 => s
  | i + 1 => (c.course (c.scriptAt s i)).2

def courseAt (c : Call) (s : Script) (i : Nat) : Course := (c.course (c.scriptAt s i)).1

/-- What an attempt ends with; one that is cut off has timed out. -/
def outcomeAt (c : Call) (s : Script) (i : Nat) : Except EngineError Reply :=
  (c.courseAt s i).outcome c.limit (.timeout c.config.attemptTimeout)

def spentAt (c : Call) (s : Script) (i : Nat) : Nat := (c.courseAt s i).spent c.limit

def verdict (c : Call) (attempts : Nat) :
    Except EngineError Reply → Except OperationError Reply
  | .ok reply => .ok reply
  | .error e =>
    if e.isTransient then
      .error (.exhausted c.goal.kind c.goal.target (c.config.retries + 1) e)
    else .error (.permanent c.goal.kind c.goal.target attempts e)

end Call

def total (f : Nat → Nat) : Nat → Nat
  | 0 => 0
  | n + 1 => total f n + f n

def Metrics.attemptsOf (m : Metrics) (kind : RequestKind) : Nat :=
  (m.attempts.find? kind.name).getD 0

/-! ## Replies of the right kind -/

def Reply.kind : Reply → RequestKind
  | fetched _ => .get
  | put _ => .put
  | deleted => .delete
  | keys _ => .listKeys

namespace Script

def Typed (s : Script) : Prop :=
  ∀ kind, ∀ scripted ∈ s.queued.of kind, ∀ reply, scripted.result = .ok reply → reply.kind = kind

variable {s : Script}

theorem kind_standardReply (kind : RequestKind) : (standardReply kind).kind = kind := by
  cases kind <;> rfl

theorem Typed.kind_eq (h : s.Typed) {r : Request} {reply : Reply}
    (hreply : (s.ask r).1.result = .ok reply) : reply.kind = r.kind := by
  unfold ask at hreply
  dsimp only at hreply
  cases hqueue : s.queued.of r.kind with
  | nil =>
      rw [hqueue] at hreply
      injection hreply with hreply
      rw [← hreply, kind_standardReply]
  | cons scripted rest =>
      rw [hqueue] at hreply
      exact h r.kind scripted (by rw [hqueue]; exact List.mem_cons_self) reply hreply

theorem Typed.ask (h : s.Typed) (r : Request) : (s.ask r).2.Typed := by
  unfold Script.ask
  dsimp only
  cases hqueue : s.queued.of r.kind with
  | nil => exact h
  | cons scripted rest =>
      intro kind scripted' hmem
      by_cases hkind : kind = r.kind
      · subst hkind
        rw [PerKind.of_set_self] at hmem
        exact h r.kind scripted' (by rw [hqueue]; exact List.mem_cons_of_mem _ hmem)
      · rw [PerKind.of_set_of_ne _ hkind] at hmem
        exact h kind scripted' hmem

end Script

theorem Script.Typed.course {s : Script} (h : s.Typed) (c : Call) : (c.course s).2.Typed := by
  unfold Call.course
  dsimp only
  split
  · exact h.ask _
  · exact (h.ask _).ask _

theorem Script.Typed.scriptAt {s : Script} (h : s.Typed) (c : Call) (i : Nat) :
    (c.scriptAt s i).Typed := by
  induction i with
  | zero => exact h
  | succ i ih => exact ih.course c

/-! ## Attempts of one request -/

theorem Script.queued_ask (s : Script) (r : Request) :
    (s.ask r).2.queued.of r.kind = (s.queued.of r.kind).tail := by
  unfold ask
  dsimp only
  cases hqueue : s.queued.of r.kind with
  | nil => exact hqueue
  | cons reply rest => exact PerKind.of_set_self ..

theorem Script.ask_fst (s : Script) (r : Request) :
    (s.ask r).1 = ((s.queued.of r.kind).head?).getD ⟨.ok (standardReply r.kind), some 0⟩ := by
  unfold ask
  dsimp only
  cases s.queued.of r.kind <;> rfl

/-- Unless a write follows a read, attempts go as the queued replies do, one after another. -/
theorem Call.courseAt_eq {c : Call} (h : ∀ reply, c.nextRequest reply = none) (s : Script)
    (i : Nat) :
    c.courseAt s i = .ofReply (((s.queued.of c.firstRequest.kind)[i]?).getD
      ⟨.ok (Script.standardReply c.firstRequest.kind), some 0⟩) := by
  have hcourse (s : Script) :
      c.course s = (.ofReply (s.ask c.firstRequest).1, (s.ask c.firstRequest).2) := by
    have hfollow : c.followUp (.ofReply (s.ask c.firstRequest).1) = none := by
      unfold followUp
      split_ifs
      · cases (Course.ofReply (s.ask c.firstRequest).1).result with
        | error e => rfl
        | ok reply => exact h reply
      · rfl
    unfold course
    dsimp only
    rw [hfollow]
  have hqueue : (c.scriptAt s i).queued.of c.firstRequest.kind =
      (s.queued.of c.firstRequest.kind).drop i := by
    induction i with
    | zero => rfl
    | succ i ih => rw [scriptAt, hcourse, Script.queued_ask, ih, List.tail_drop]
  rw [courseAt, hcourse, Script.ask_fst, hqueue, List.head?_drop]

end SiblingStore
