import Quotation.Image.Octets
import Quotation.Image.Size

/-!
# JPEG images

A JPEG file is a sequence of segments, each behind a mark. Tables and the frame, which has the size,
come before the first scan; a scan that breaks off leaves the rest of the image grey.

* `Jpeg.Headers`: what is known before the first scan;
* `Jpeg.size?`: the size of an image whose first scan can begin.
-/

namespace Quotation.Jpeg

/-- A component of the frame, its table of quantities, and its two tables of words. -/
structure Component where
  id : Nat
  quantities : Nat

/-- The size, the components, and whether the image comes in ever finer scans. -/
structure Frame where
  size : Size
  components : List Component
  progressive : Bool

/-- What is known before the first scan: the frame, and which tables are there. Tables of words are
of two classes. -/
structure Headers where
  frame : Option Frame := none
  quantities : List Nat := []
  words : List (Nat × Nat) := []

/-- A mark whose segment has nothing in it. -/
def isBare (mark : Nat) : Bool :=
  mark = 0x01 || (0xD0 ≤ mark && mark ≤ 0xD8)

/-- Reads tables of quantities, each behind a byte that has its precision and its number. -/
def readQuantities (file : ByteArray) (stop : Nat) : Nat → Nat → Headers → Option Headers
  | 0, _, _ => none
  | fuel + 1, position, h =>
    if stop ≤ position then some h
    else
      match Octets.byte? file position with
      | none => none
      | some b =>
        let entry := if b.toNat / 16 = 0 then 64 else 128
        if 1 < b.toNat / 16 || 3 < b.toNat % 16 || stop < position + 1 + entry then none
        else readQuantities file stop fuel (position + 1 + entry)
          { h with quantities := b.toNat % 16 :: h.quantities }

/-- Reads tables of words, each behind a byte that has its class and its number and sixteen counts
of words. -/
def readWords (file : ByteArray) (stop : Nat) : Nat → Nat → Headers → Option Headers
  | 0, _, _ => none
  | fuel + 1, position, h =>
    if stop ≤ position then some h
    else
      match Octets.byte? file position,
          (List.range 16).mapM fun i => Octets.byte? file (position + 1 + i) with
      | some b, some counts =>
        let total := counts.foldl (fun n c => n + c.toNat) 0
        if 1 < b.toNat / 16 || 3 < b.toNat % 16 || 256 < total || stop < position + 17 + total then
          none
        else readWords file stop fuel (position + 17 + total)
          { h with words := (b.toNat / 16, b.toNat % 16) :: h.words }
      | _, _ => none

/-- Reads the frame. Samples have eight bits. -/
def readFrame (file : ByteArray) (start stop : Nat) (progressive : Bool) : Option Frame := do
  let precision ← Octets.bigEndian? file start 1
  let height ← Octets.bigEndian? file (start + 1) 2
  let width ← Octets.bigEndian? file (start + 3) 2
  let count ← Octets.bigEndian? file (start + 5) 1
  if precision ≠ 8 || width = 0 || height = 0 || !([1, 3, 4].contains count) ||
    start + 6 + 3 * count ≠ stop then none
  let components ← (List.range count).mapM fun i => do
    let id ← Octets.bigEndian? file (start + 6 + 3 * i) 1
    let sampling ← Octets.bigEndian? file (start + 7 + 3 * i) 1
    let quantities ← Octets.bigEndian? file (start + 8 + 3 * i) 1
    if sampling / 16 = 0 || 4 < sampling / 16 || sampling % 16 = 0 || 4 < sampling % 16 then none
    return { id, quantities }
  return ⟨⟨width, height⟩, components, progressive⟩

/-- Whether a scan can begin: its components are in the frame and their tables are there. -/
def canScan (file : ByteArray) (start stop : Nat) (h : Headers) (f : Frame) : Bool :=
  (do
    let count ← Octets.bigEndian? file start 1
    if count = 0 || 4 < count || start + 4 + 2 * count ≠ stop then none
    (List.range count).forM fun i => do
      let id ← Octets.bigEndian? file (start + 1 + 2 * i) 1
      let tables ← Octets.bigEndian? file (start + 2 + 2 * i) 1
      let component ← f.components.find? fun c => c.id = id
      if !h.quantities.contains component.quantities then none
      if !h.words.contains (0, tables / 16) && !f.progressive then none
      if !h.words.contains (1, tables % 16) && !f.progressive then none
    : Option Unit).isSome

/-- Reads segments up to the first scan. Bytes between segments are passed over. -/
def readSegments (file : ByteArray) : Nat → Nat → Headers → Option Size
  | 0, _, _ => none
  | fuel + 1, position, h =>
    match Octets.byte? file position, Octets.bigEndian? file (position + 1) 1 with
    | some front, some mark =>
      if front ≠ 0xFF || mark = 0 || mark = 0xFF then readSegments file fuel (position + 1) h
      else if isBare mark then readSegments file fuel (position + 2) h
      else
        match Octets.bigEndian? file (position + 2) 2 with
        | none => none
        | some length =>
          let start := position + 4
          let stop := position + 2 + length
          if length < 2 || file.size < stop || mark = 0xD9 then none
          else if mark = 0xDA then
            (h.frame.filter fun f => canScan file start stop h f).map (·.size)
          else if mark = 0xDB then
            (readQuantities file stop (length + 1) start h).bind (readSegments file fuel stop)
          else if mark = 0xC4 then
            (readWords file stop (length + 1) start h).bind (readSegments file fuel stop)
          else if mark ≤ 0xC2 ∧ 0xC0 ≤ mark then
            (readFrame file start stop (mark = 0xC2)).bind fun f =>
              readSegments file fuel stop { h with frame := some f }
          else if 0xC3 ≤ mark ∧ mark ≤ 0xCF then none
          else readSegments file fuel stop h
    | _, _ => none

/-- The size of the image in a file. -/
def size? (file : ByteArray) : Option Size :=
  if Octets.has file 0 [0xFF, 0xD8] then readSegments file file.size 2 {} else none

end Quotation.Jpeg
