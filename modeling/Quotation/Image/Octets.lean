/-!
# Parts of a file

A file as an array of bytes, and what can be found at a position in it. Whatever reaches beyond the
end is not there.

* `Octets.byte?`, `Octets.bigEndian?`, `Octets.littleEndian?`: bytes and numbers;
* `Octets.has`: whether given bytes stand at a position.
-/

namespace Quotation.Octets

/-- The byte at a position. -/
def byte? (file : ByteArray) (i : Nat) : Option UInt8 :=
  if h : i < file.size then some file[i] else none

/-- Whether the bytes stand at a position. -/
def has (file : ByteArray) (i : Nat) (bytes : List UInt8) : Bool :=
  bytes.zipIdx.all fun (b, n) => byte? file (i + n) == some b

/-- The number in `n` bytes from a position on, the highest first. -/
def bigEndian? (file : ByteArray) (i n : Nat) : Option Nat :=
  (List.range n).foldlM (fun value k => (byte? file (i + k)).map fun b => 256 * value + b.toNat) 0

/-- The number in `n` bytes from a position on, the lowest first. -/
def littleEndian? (file : ByteArray) (i n : Nat) : Option Nat :=
  (List.range n).foldrM (fun k value => (byte? file (i + k)).map fun b => 256 * value + b.toNat) 0

end Quotation.Octets
