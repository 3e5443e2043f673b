import SiblingStore.Client.Basic

/-!
# Buckets

A bucket seen through a codec, with a resolver for the conflicts that a fetch
meets. Every version of a key is decoded before anything is made of it, so one
that cannot be decoded fails the fetch even if a resolver would drop it.
-/

namespace SiblingStore

/-- What is counted of a conflict by the resolver that declines it. -/
def Unresolved.counters (u : Unresolved) : List Counter :=
  if u.isDisagreement then [.identityDisagreements] else []

/-- Resolves siblings outside any bucket. -/
def Resolver.resolve {α : Type} (r : Resolver α) (s : SiblingSet α) (w : World) :
    Except Unresolved α × World :=
  match r s with
  | .ok a => (.ok a, w)
  | .error u => (.error u, (u.counters.foldl World.count w).tell u.events)

structure Bucket (α : Type) where
  name : String
  codec : Codec α
  resolver : Resolver α

/-- What a reply comes to, with the counts and events on the way. -/
structure Reading (α : Type) where
  result : Except OperationError (Option (Fetched α))
  counters : List Counter
  events : List Event

namespace Bucket

variable {α : Type}

def locate (b : Bucket α) (key : String) : Location := ⟨b.name, key⟩

def decodeOne (b : Bucket α) (l : Location) (v : RawVersion) :
    Except OperationError (Sibling α) :=
  match b.codec.decode v.value with
  | .error e => .error (.conversion l e)
  | .ok a => .ok ⟨a, v.time, v.tag⟩

def decodeAll (b : Bucket α) (l : Location) :
    List RawVersion → Except OperationError (List (Sibling α))
  | [] => .ok []
  | v :: vs =>
    match b.decodeOne l v with
    | .error e => .error e
    | .ok s => (b.decodeAll l vs).map (s :: ·)

def settle (b : Bucket α) (s : SiblingSet α) : Reading α :=
  match b.resolver s with
  | .ok a =>
    ⟨.ok (some (.value a s.context)), [.siblingsObserved, .conflictsResolved],
      [⟨.debug, s!"resolved {s.size} siblings in bucket " ++ b.name⟩]⟩
  | .error u =>
    ⟨.error (.unresolved u), [.siblingsObserved] ++ u.counters ++ [.conflictsUnresolved], u.events⟩

/-- What to make of decoded siblings: a conflict is settled only if that is wanted. -/
def present (b : Bucket α) (resolve : Bool) (s : SiblingSet α) : Reading α :=
  if !s.isConflict then ⟨.ok (some (.value s.first.value s.context)), [], []⟩
  else if resolve then b.settle s
  else ⟨.ok (some (.siblings s)), [.siblingsObserved], []⟩

/-- What the versions of a key come to; without any the key is absent. -/
def read (b : Bucket α) (l : Location) (resolve : Bool) (reply : FetchReply) : Reading α :=
  match b.decodeAll l reply.versions with
  | .error e => ⟨.error e, [], []⟩
  | .ok members =>
    match SiblingSet.of? l reply.context members with
    | none => ⟨.ok none, [], []⟩
    | some s => b.present resolve s

end Bucket

def Reading.conclude {α : Type} (r : Reading α) (w : World) :
    Except OperationError (Option (Fetched α)) × World :=
  (r.result, (r.counters.foldl World.count w).tell r.events)

namespace Bucket

variable {α : Type}

def fetch (b : Bucket α) (c : Client) (key : String) (config : OperationConfig) :
    Pending (Option (Fetched α)) :=
  (c.fetch (b.locate key) config).andThen fun reply =>
    (b.read (b.locate key) (!config.allowSiblings) reply).conclude

/-- A single value, whether or not the caller allows siblings. -/
def fetchValue (b : Bucket α) (c : Client) (key : String) (config : OperationConfig) :
    Pending (Option α) :=
  (b.fetch c key { config with allowSiblings := false }).map (·.bind Fetched.value?)

/-- Writes a value. What it finds afterwards is handed back if that is wanted, and
never resolved. -/
def store (b : Bucket α) (c : Client) (key : String) (value : α) (config : OperationConfig) :
    Pending (Option (Fetched α)) :=
  match b.codec.encode value with
  | .error e => .refused (.conversion (b.locate key) e)
  | .ok bs =>
    (c.store (b.locate key) bs config).andThen fun reply w =>
      match reply.body with
      | some body =>
        if config.returnBody then (b.read (b.locate key) false body).conclude w else (.ok none, w)
      | none => (.ok none, w)

def delete (b : Bucket α) (c : Client) (key : String) (config : OperationConfig) :
    Pending Unit :=
  c.delete (b.locate key) config

def keys (b : Bucket α) (c : Client) (config : OperationConfig) : Pending (List String) :=
  c.keys b.name config

/-- Goes on with the key an object carries; an empty one does not count. -/
def withKey {β : Type} (b : Bucket α) (k : ObjectKey α) (object : α)
    (go : String → Pending β) : Pending β :=
  match (k.key? object).filter (!·.isEmpty) with
  | some key => go key
  | none => .refused (.noKey b.name k.typeName)

def storeObject (b : Bucket α) (k : ObjectKey α) (c : Client) (object : α)
    (config : OperationConfig) : Pending (Option (Fetched α)) :=
  b.withKey k object fun key => b.store c key object config

def fetchObject (b : Bucket α) (k : ObjectKey α) (c : Client) (object : α)
    (config : OperationConfig) : Pending (Option (Fetched α)) :=
  b.withKey k object fun key => b.fetch c key config

def deleteObject (b : Bucket α) (k : ObjectKey α) (c : Client) (object : α)
    (config : OperationConfig) : Pending Unit :=
  b.withKey k object fun key => b.delete c key config

end Bucket

end SiblingStore
