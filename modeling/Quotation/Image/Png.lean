import Quotation.Compression.Deflate
import Quotation.Image.Checksum
import Quotation.Image.Octets
import Quotation.Image.Size

/-!
# PNG images

A PNG file is a signature and a sequence of chunks. Its header comes first, then a palette if the
colours are indices, then the pixels, compressed and spread over chunks that follow each other.

* `Png.Header`: size and form of the pixels;
* `Png.size?`: the size of an image whose pixels are all there.
-/

namespace Quotation.Png

/-- The eight bytes that every file begins with. -/
def signature : List UInt8 := [0x89, 0x50, 0x4E, 0x47, 0x0D, 0x0A, 0x1A, 0x0A]

/-- A part of a file: its name, and where its content lies. -/
structure Chunk where
  name : List UInt8
  start : Nat
  length : Nat
  isIntact : Bool

namespace Chunk

/-- The names of the parts that matter. -/
def header : List UInt8 := "IHDR".toUTF8.toList
/-- The name of the palette. -/
def palette : List UInt8 := "PLTE".toUTF8.toList
/-- The name of the pixels. -/
def pixels : List UInt8 := "IDAT".toUTF8.toList
/-- The name of the end. -/
def finish : List UInt8 := "IEND".toUTF8.toList

/-- The chunk at a position, if it is all there. Its check covers name and content. -/
def at? (file : ByteArray) (position : Nat) : Option Chunk := do
  let length ← Octets.bigEndian? file position 4
  let start := position + 8
  let name ← (List.range 4).mapM fun i => Octets.byte? file (position + 4 + i)
  let check ← Octets.bigEndian? file (start + length) 4
  return ⟨name, start, length,
    (Checksum.crc32 file (position + 4) (start + length)).toNat = check⟩

/-- The position behind a chunk. -/
def next (c : Chunk) : Nat := c.start + c.length + 4

/-- Whether readers have to know a chunk; the name of such a chunk begins with a capital letter. -/
def isCritical (c : Chunk) : Bool :=
  c.name.head?.any fun b => (b.toNat / 32) % 2 = 0

/-- Whether a chunk may be used or passed over: damage is borne only where it does not matter. -/
def isUsable (c : Chunk) : Bool := c.isIntact || !c.isCritical

end Chunk

/-- Size and form of the pixels. -/
structure Header where
  size : Size
  bitDepth : Nat
  colourType : Nat
  interlaced : Bool

namespace Header

/-- The depths that go with a type of colour. -/
def depths (colourType : Nat) : List Nat :=
  match colourType with
  | 0 => [1, 2, 4, 8, 16]
  | 2 => [8, 16]
  | 3 => [1, 2, 4, 8]
  | 4 => [8, 16]
  | 6 => [8, 16]
  | _ => []

/-- The number of values in a pixel. -/
def channels (h : Header) : Nat :=
  match h.colourType with
  | 2 => 3
  | 4 => 2
  | 6 => 4
  | _ => 1

/-- The header in a chunk. -/
def ofChunk? (file : ByteArray) (c : Chunk) : Option Header := do
  if c.name ≠ Chunk.header || c.length ≠ 13 || !c.isIntact then none
  let width ← Octets.bigEndian? file c.start 4
  let height ← Octets.bigEndian? file (c.start + 4) 4
  let bitDepth ← Octets.bigEndian? file (c.start + 8) 1
  let colourType ← Octets.bigEndian? file (c.start + 9) 1
  let compression ← Octets.bigEndian? file (c.start + 10) 1
  let filtering ← Octets.bigEndian? file (c.start + 11) 1
  let interlacing ← Octets.bigEndian? file (c.start + 12) 1
  if width = 0 || height = 0 || !(depths colourType).contains bitDepth || compression ≠ 0 ||
    filtering ≠ 0 || 1 < interlacing then none
  return ⟨⟨width, height⟩, bitDepth, colourType, interlacing = 1⟩

/-- The bytes of a row of pixels, without the one in front that names its filter. -/
def rowBytes (h : Header) (width : Nat) : Nat :=
  (width * h.channels * h.bitDepth + 7) / 8

/-- The seven passes of an interlaced image: the first column, the first row, and the steps from
column to column and from row to row. -/
def passes : List (Nat × Nat × Nat × Nat) :=
  [(0, 0, 8, 8), (4, 0, 8, 8), (0, 4, 4, 8), (2, 0, 4, 4), (0, 2, 2, 4), (1, 0, 2, 2), (0, 1, 1, 2)]

/-- How many of the places below `n` are met from the first one on with the given step. -/
def met (n first step : Nat) : Nat :=
  (n - first + step - 1) / step

/-- The images whose rows follow each other in the pixels, as the number of rows and the bytes of
each. -/
def bands (h : Header) : List (Nat × Nat) :=
  if h.interlaced then
    passes.filterMap fun (column, row, columnStep, rowStep) =>
      let width := met h.size.width column columnStep
      let height := met h.size.height row rowStep
      if width = 0 then none else some (height, h.rowBytes width)
  else [(h.size.height, h.rowBytes h.size.width)]

end Header

/-- Whether the rows of a band are there, each behind the name of a filter, and the position behind
them. -/
def rowsFrom? (data : ByteArray) (bytes : Nat) : Nat → Nat → Option Nat
  | 0, position => some position
  | rows + 1, position =>
    match Octets.byte? data position with
    | none => none
    | some filter =>
      if 4 < filter then none
      else if data.size < position + 1 + bytes then none
      else rowsFrom? data bytes rows (position + 1 + bytes)

/-- Whether all pixels of an image are there. -/
def holdsPixels (h : Header) (data : ByteArray) : Bool :=
  (h.bands.foldlM (fun position (rows, bytes) => rowsFrom? data bytes rows position) 0).isSome

/-- The first chunk with pixels, and whether a palette comes before it. A chunk takes some bytes, so
that the number of bytes bounds the number of chunks. -/
def findPixels? (file : ByteArray) : Nat → Nat → Bool → Option (Nat × Bool)
  | 0, _, _ => none
  | fuel + 1, position, hasPalette =>
    match Chunk.at? file position with
    | none => none
    | some c =>
      if c.name = Chunk.pixels then some (position, hasPalette)
      else if c.name = Chunk.finish || !c.isUsable then none
      else findPixels? file fuel c.next (hasPalette || c.name == Chunk.palette)

/-- The contents of the chunks with pixels from a position on, joined, and the position behind
them. -/
def collectPixels? (file : ByteArray) : Nat → Nat → ByteArray → Option (ByteArray × Nat)
  | 0, _, _ => none
  | fuel + 1, position, data =>
    if Octets.has file (position + 4) Chunk.pixels then
      match Chunk.at? file position with
      | none => none
      | some c =>
        if c.isIntact then
          collectPixels? file fuel c.next (data ++ file.extract c.start (c.start + c.length))
        else none
    else some (data, position)

/-- The size of the image in a file. Behind the pixels another chunk has to begin. -/
def size? (file : ByteArray) : Option Size := do
  if !Octets.has file 0 signature then none
  let first ← Chunk.at? file signature.length
  let header ← Header.ofChunk? file first
  let (position, hasPalette) ← findPixels? file file.size first.next false
  if header.colourType = 3 && !hasPalette then none
  let (data, finish) ← collectPixels? file file.size position .empty
  if file.size < finish + 8 then none
  let pixels ← Deflate.expandWrapped? data
  if holdsPixels header pixels then some header.size else none

end Quotation.Png
