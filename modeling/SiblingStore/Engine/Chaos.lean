import SiblingStore.Engine.Request

/-!
# Injected faults

In front of an engine, calls can be counted, held up, made to fail by chance, and
made to fail by errors that are queued for a kind of request.
-/

namespace SiblingStore

structure Chaos where
  failing : Bool
  /-- Milliseconds that every call is held up. -/
  latency : Nat
  queued : PerKind (List EngineError)
  calls : PerKind Nat

namespace Chaos

def none : Chaos := ⟨false, 0, .same [], .same 0⟩

instance : Inhabited Chaos := ⟨none⟩

def count (c : Chaos) (kind : RequestKind) : Chaos :=
  { c with calls := c.calls.set kind (c.calls.of kind + 1) }

def failNext (c : Chaos) (kind : RequestKind) (n : Nat) (e : EngineError) : Chaos :=
  { c with queued := c.queued.set kind (c.queued.of kind ++ List.replicate n e) }

/-- The error a call ends with instead of reaching the engine, if there is one.
`failing` is what was decided when the call came in. -/
def fault (c : Chaos) (kind : RequestKind) (failing : Bool) : Option EngineError × Chaos :=
  match c.queued.of kind with
  | e :: rest => (some e, { c with queued := c.queued.set kind rest })
  | [] => (if failing then some (.unavailable "chaos: random failure") else Option.none, c)

def resetCalls (c : Chaos) : Chaos := { c with calls := .same 0 }

def totalCalls (c : Chaos) : Nat :=
  c.calls.get + c.calls.put + c.calls.delete + c.calls.listKeys

end Chaos

end SiblingStore
