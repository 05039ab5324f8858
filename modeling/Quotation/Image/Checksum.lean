/-!
# Checksums

The cyclic redundancy check CRC-32 with its bits in reverse, by which parts of files are protected.

* `Checksum.crc32`: the check of a part of a file.
-/

namespace Quotation.Checksum

/-- The polynomial, the lowest coefficient at the highest bit. -/
def polynomial : UInt32 := 0xEDB88320

/-- Moves the remainder down by one bit. -/
def shift (c : UInt32) : UInt32 :=
  if c &&& 1 = 1 then (c >>> 1) ^^^ polynomial else c >>> 1

/-- Takes a byte into the remainder. -/
def absorb (c : UInt32) (b : UInt8) : UInt32 :=
  Nat.repeat shift 8 (c ^^^ b.toUInt32)

/-- The check of the bytes between two positions. -/
def crc32 (file : ByteArray) (start stop : Nat) : UInt32 :=
  (file.extract start stop).foldl absorb 0xFFFFFFFF ^^^ 0xFFFFFFFF

end Quotation.Checksum
