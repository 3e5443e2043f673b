import SiblingStore.Bytes

/-!
# Cyclic redundancy check

The 32-bit check of IEEE 802.3, least significant bit first: the register
starts with all bits set, takes in the octets one by one and is complemented at
the end.
-/

namespace SiblingStore.Digest.Crc32

/-- The generator polynomial, lowest power in the highest bit. -/
def polynomial : UInt32 := 0xEDB88320

/-- One division step: shifts a bit out and subtracts the generator if it was set. -/
def shift (c : UInt32) : UInt32 :=
  if c &&& 1 = 1 then (c >>> 1) ^^^ polynomial else c >>> 1

def shiftOctet (c : UInt32) : UInt32 :=
  shift (shift (shift (shift (shift (shift (shift (shift c)))))))

def step (c : UInt32) (b : UInt8) : UInt32 := shiftOctet (c ^^^ b.toUInt32)

def run (c : UInt32) (bs : Bytes) : UInt32 := bs.foldl step c

def ofBytes (bs : Bytes) : UInt32 := run 0xFFFFFFFF bs ^^^ 0xFFFFFFFF

end SiblingStore.Digest.Crc32
