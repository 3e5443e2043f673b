import SiblingStore.Engine.Request

/-!
# Scripted engines

An engine that answers from prepared replies and keeps a record of what it was
asked. Each kind of request has a queue of its own; an empty queue gives a reply
that says nothing.
-/

namespace SiblingStore

structure ScriptedReply where
  result : Except EngineError Reply
  /-- Milliseconds until the reply comes; without any it never does. -/
  delay : Option Nat

structure Script where
  queued : PerKind (List ScriptedReply)
  /-- What was asked, latest first. -/
  asked : List Request

namespace Script

def standardReply : RequestKind → Reply
  | .get => .fetched ⟨[], []⟩
  | .put => .put ⟨false, none⟩
  | .delete => .deleted
  | .listKeys => .keys []

def ask (s : Script) (r : Request) : ScriptedReply × Script :=
  let s := { s with asked := r :: s.asked }
  match s.queued.of r.kind with
  | [] => (⟨.ok (standardReply r.kind), some 0⟩, s)
  | reply :: rest => (reply, { s with queued := s.queued.set r.kind rest })

end Script

end SiblingStore
