import SiblingStore.Digest.Crc32
import SiblingStore.Trace
import SiblingStore.Version.Codec

/-!
# The write-ahead log

A log is a sequence of entries, each a version as JSON behind its checksum and
length and before a line break. Replaying stops at the first entry that is cut
short or damaged and keeps what comes before it; an intact entry that holds no
version makes the log unreadable.
-/

namespace SiblingStore.Log

def terminator : UInt8 := 0x0A

/-- The bytes of an entry: checksum and length in four octets each, then the
payload and a terminator. -/
def frame (payload : Bytes) : Bytes :=
  Bytes.littleEndian 4 (Digest.Crc32.ofBytes payload).toNat
    ++ Bytes.littleEndian 4 payload.length ++ payload ++ [terminator]

def entry (v : Version) : Bytes := frame v.json

inductive Ending where
  /-- Fewer bytes are left than a header has. -/
  | complete
  /-- The last entry is cut short. -/
  | truncated
  /-- The checksum of an entry does not fit its payload. -/
  | mismatch (expected actual : UInt32)
  deriving Repr, DecidableEq

inductive Next where
  | ending (e : Ending)
  | payload (octets rest : Bytes)

def next (log : Bytes) : Next :=
  if log.length < 8 then .ending .complete
  else
    let expected := UInt32.ofNat (Bytes.toNat (log.take 4))
    let length := Bytes.toNat ((log.drop 4).take 4)
    let body := log.drop 8
    if body.length < length + 1 then .ending .truncated
    else
      let octets := body.take length
      let actual := Digest.Crc32.ofBytes octets
      if actual ≠ expected then .ending (.mismatch expected actual)
      else .payload octets (body.drop (length + 1))

theorem length_lt_of_next {log octets rest : Bytes} (h : next log = .payload octets rest) :
    rest.length < log.length := by
  unfold next at h
  split at h
  · simp at h
  · dsimp only at h
    split at h
    · simp at h
    · split at h
      · simp at h
      · injection h with _ h
        subst h
        simp only [List.length_drop]
        omega

/-- An intact entry whose payload is not a version. -/
structure Unreadable where
  fault : Json.Fault
  payload : Bytes

structure Replay where
  versions : List Version
  ending : Ending

def replay (log : Bytes) : Except Unreadable Replay :=
  match h : next log with
  | .ending e => .ok ⟨[], e⟩
  | .payload octets rest =>
    match Json.Reader.run Version.reader octets with
    | .error fault => .error ⟨fault, octets⟩
    | .ok v =>
      have := length_lt_of_next h
      (replay rest).map fun r => { r with versions := v :: r.versions }
termination_by log.length

def word (n : UInt32) : String :=
  "0x" ++ String.ofList ((Nat.toDigits 16 n.toNat).leftpad 8 '0')

def Replay.events (r : Replay) : List Event :=
  let entry := r.versions.length
  match r.ending with
  | .complete => []
  | .truncated => [⟨.warn, s!"WAL truncated inside entry {entry}; stopping replay"⟩]
  | .mismatch expected actual =>
    [⟨.warn, s!"WAL CRC mismatch at entry {entry}: expected {word expected}, got {word actual}; "
      ++ "stopping replay"⟩]

inductive SyncPolicy where
  | always
  | batch
  | none
  deriving Repr, DecidableEq

/-- The policy of a name, whatever its case; an unknown name means `batch`. -/
def SyncPolicy.ofName (s : String) : SyncPolicy :=
  let lower := s.toLower
  if lower = "always" then .always else if lower = "none" then .none else .batch

def SyncPolicy.name : SyncPolicy → String
  | .always => "Always"
  | .batch => "Batch"
  | .none => "None"

end SiblingStore.Log
