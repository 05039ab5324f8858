import Quotation.Image.Octets
import Quotation.Image.Size

/-!
# WebP images

A WebP file is a container of chunks. The pixels are in one chunk of the lossless or the lossy kind;
a file with further features says the size of its canvas first.

* `Webp.size?`: the size of an image whose chunk of pixels is all there.
-/

namespace Quotation.Webp

/-- A part of a file: where its content lies. -/
structure Chunk where
  start : Nat
  length : Nat

/-- The chunk of the given name at a position, if it is all there. -/
def Chunk.named? (file : ByteArray) (position : Nat) (name : String) : Option Chunk := do
  if !Octets.has file position name.toUTF8.toList then none
  let length ← Octets.littleEndian? file (position + 4) 4
  if file.size < position + 8 + length then none
  return ⟨position + 8, length⟩

/-- The position behind a chunk; one of odd length is filled up by a byte. -/
def Chunk.next (c : Chunk) : Nat := c.start + c.length + c.length % 2

/-- The size in a chunk of the lossless kind: twice fourteen bits, each for one pixel less. -/
def losslessSize? (file : ByteArray) (c : Chunk) : Option Size := do
  if c.length < 5 || !Octets.has file c.start [0x2F] then none
  let word ← Octets.littleEndian? file (c.start + 1) 4
  if word >>> 29 ≠ 0 then none
  return ⟨word % 0x4000 + 1, (word >>> 14) % 0x4000 + 1⟩

/-- The size in a chunk of the lossy kind, which begins with a frame that stands for itself. -/
def lossySize? (file : ByteArray) (c : Chunk) : Option Size := do
  let tag ← Octets.littleEndian? file c.start 3
  if c.length < 10 || tag % 2 ≠ 0 || !Octets.has file (c.start + 3) [0x9D, 0x01, 0x2A] then none
  if c.length < 10 + tag >>> 5 then none
  let width ← Octets.littleEndian? file (c.start + 6) 2
  let height ← Octets.littleEndian? file (c.start + 8) 2
  if width % 0x4000 = 0 || height % 0x4000 = 0 then none
  return ⟨width % 0x4000, height % 0x4000⟩

/-- The size in the chunk of pixels at a position. -/
def pixelsSize? (file : ByteArray) (position : Nat) : Option Size :=
  ((Chunk.named? file position "VP8L").bind (losslessSize? file)).or
    ((Chunk.named? file position "VP8 ").bind (lossySize? file))

/-- Looks for pixels of the given size among the chunks from a position on; an animation has them in
its frames. A chunk takes some bytes, so that the number of bytes bounds the number of chunks. -/
def hasPixels (file : ByteArray) (canvas : Size) : Nat → Nat → Bool
  | 0, _ => false
  | fuel + 1, position =>
    if pixelsSize? file position = some canvas then true
    else if (Chunk.named? file position "ANMF").isSome then true
    else
      match Octets.littleEndian? file (position + 4) 4 with
      | none => false
      | some length => hasPixels file canvas fuel (Chunk.next ⟨position + 8, length⟩)

/-- The size of the canvas of a file with further features. -/
def extendedSize? (file : ByteArray) : Option Size := do
  let c ← Chunk.named? file 12 "VP8X"
  let width ← Octets.littleEndian? file (c.start + 4) 3
  let height ← Octets.littleEndian? file (c.start + 7) 3
  let canvas : Size := ⟨width + 1, height + 1⟩
  if 10 ≤ c.length && hasPixels file canvas file.size c.next then some canvas else none

/-- The size of the image in a file. -/
def size? (file : ByteArray) : Option Size :=
  if Octets.has file 0 "RIFF".toUTF8.toList && Octets.has file 8 "WEBP".toUTF8.toList then
    (pixelsSize? file 12).or (extendedSize? file)
  else none

end Quotation.Webp
