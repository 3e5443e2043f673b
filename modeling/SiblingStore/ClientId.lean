import SiblingStore.Digest.Sha1
import SiblingStore.Json.Reader
import SiblingStore.Json.Writer

/-!
# Writer identities

A client is known by four octets. Their lower-case hexadecimal form is the name
under which its writes are counted in clocks.
-/

namespace SiblingStore

structure ClientId where
  octets : Bytes
  four : octets.length = 4 := by rfl
  deriving DecidableEq

namespace ClientId

instance : Inhabited ClientId := ⟨⟨[0, 0, 0, 0], rfl⟩⟩

inductive Refusal where
  | notHex (fault : Text.Hex.Fault)
  | wrongLength (count : Nat)
  deriving Repr, DecidableEq

def Refusal.message : Refusal → String
  | .notHex fault => "client id is not valid hex: " ++ fault.message
  | .wrongLength count => s!"client id must be 4 bytes, got {count}"

def ofBytes? (bs : Bytes) : Option ClientId :=
  if h : bs.length = 4 then some ⟨bs, h⟩ else none

def ofHex (s : String) : Except Refusal ClientId :=
  match Text.Hex.decode s with
  | .error fault => .error (.notHex fault)
  | .ok bs => if h : bs.length = 4 then .ok ⟨bs, h⟩ else .error (.wrongLength bs.length)

def toHex (id : ClientId) : String := Text.Hex.encode id.octets

def ofSeed (seed : Bytes) : ClientId :=
  ⟨(Digest.Sha1.ofBytes seed).take 4, by
    simp [Digest.Sha1.ofBytes, Digest.Sha1.bigEndian]⟩

/-- The identity of a number below 2³², most significant octet first. -/
def ofNat (n : Nat) : ClientId :=
  ⟨Digest.Sha1.bigEndian 4 n, by simp [Digest.Sha1.bigEndian]⟩

def debug (id : ClientId) : String := "ClientId(" ++ id.toHex ++ ")"

def order (a b : ClientId) : Ordering := compare a.octets b.octets

def json (id : ClientId) : Bytes :=
  Json.Writer.list (id.octets.map fun b => Json.Writer.natural b.toNat)

def reader : Json.Reader ClientId := fun bs =>
  match Json.Reader.exactly 4 "four octets" Json.Reader.octet bs with
  | .error f => .error f
  | .ok (octets, rest) =>
    match ofBytes? octets with
    | some id => .ok (id, rest)
    | none => Json.Reader.faultAt (.invalidLength octets.length "four octets") rest

end ClientId

end SiblingStore
