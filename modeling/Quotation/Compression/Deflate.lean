import Quotation.Compression.PrefixCode

/-!
# Compressed streams

The DEFLATE format and its ZLIB wrapping. A stream is a sequence of blocks; in a block, bytes stand
for themselves or repeat earlier ones, which are named by a length and a distance.

* `Deflate.expand?`: the bytes that a stream stands for, and where it ends;
* `Deflate.expandWrapped?`: the same for a wrapped stream, whose checksum has to be there but is not
  looked at.
-/

namespace Quotation.Deflate

/-- The bit at a position, counting from the lowest bit of the first byte. -/
def bit? (input : ByteArray) (position : Nat) : Option Bool :=
  if h : position / 8 < input.size then
    some ((input[position / 8].toNat >>> (position % 8)) % 2 = 1)
  else none

/-- The number in the next `n` bits, the lowest first, and the position behind them. -/
def bits? (input : ByteArray) (n position : Nat) : Option (Nat × Nat) :=
  ((List.range n).foldrM (fun i value =>
    (bit? input (position + i)).map fun b => 2 * value + b.toNat) 0).map (·, position + n)

/-- The smallest length of each length symbol from 257 on, and its number of further bits. -/
def lengthTable : Array (Nat × Nat) :=
  #[(3, 0), (4, 0), (5, 0), (6, 0), (7, 0), (8, 0), (9, 0), (10, 0), (11, 1), (13, 1), (15, 1),
    (17, 1), (19, 2), (23, 2), (27, 2), (31, 2), (35, 3), (43, 3), (51, 3), (59, 3), (67, 4),
    (83, 4), (99, 4), (115, 4), (131, 5), (163, 5), (195, 5), (227, 5), (258, 0)]

/-- The smallest distance of each distance symbol, and its number of further bits. -/
def distanceTable : Array (Nat × Nat) :=
  #[(1, 0), (2, 0), (3, 0), (4, 0), (5, 1), (7, 1), (9, 2), (13, 2), (17, 3), (25, 3), (33, 4),
    (49, 4), (65, 5), (97, 5), (129, 6), (193, 6), (257, 7), (385, 7), (513, 8), (769, 8),
    (1025, 9), (1537, 9), (2049, 10), (3073, 10), (4097, 11), (6145, 11), (8193, 12), (12289, 12),
    (16385, 13), (24577, 13)]

/-- The order in which the lengths of the words for lengths are given. -/
def lengthOrder : List Nat :=
  [16, 17, 18, 0, 8, 7, 9, 6, 10, 5, 11, 4, 12, 3, 13, 2, 14, 1, 15]

/-- The value of a symbol by its table, after reading its further bits. -/
def tabulated? (input : ByteArray) (table : Array (Nat × Nat)) (s position : Nat) :
    Option (Nat × Nat) := do
  let (least, further) ← table[s]?
  let (rest, position) ← bits? input further position
  return (least + rest, position)

/-- Repeats as many bytes as `n` says, each from the given distance back. -/
def repeatBytes (distance : Nat) : Nat → ByteArray → ByteArray
  | 0, out => out
  | n + 1, out => repeatBytes distance n (out.push (out[out.size - distance]?.getD 0))

/-- Expands the symbols of a block up to its end; each takes a bit at least, so that `fuel` is the
number of bits. -/
def expandSymbols (input : ByteArray) (literals distances : PrefixCode) :
    Nat → Nat → ByteArray → Option (Nat × ByteArray)
  | 0, _, _ => none
  | fuel + 1, position, out =>
    match literals.read (bit? input) position with
    | none => none
    | some (s, position) =>
      if s < 256 then
        expandSymbols input literals distances fuel position (out.push (UInt8.ofNat s))
      else if s = 256 then some (position, out)
      else
        match tabulated? input lengthTable (s - 257) position with
        | none => none
        | some (length, position) =>
          match distances.read (bit? input) position with
          | none => none
          | some (d, position) =>
            match tabulated? input distanceTable d position with
            | none => none
            | some (distance, position) =>
              if out.size < distance then none
              else expandSymbols input literals distances fuel position
                (repeatBytes distance length out)

/-- The code for bytes and lengths in blocks that bring none of their own. -/
def fixedLiterals : Option PrefixCode :=
  PrefixCode.ofLengths? (List.replicate 144 8 ++ List.replicate 112 9 ++ List.replicate 24 7 ++
    List.replicate 8 8)

/-- The code for distances in such blocks. -/
def fixedDistances : Option PrefixCode :=
  PrefixCode.ofLengths? (List.replicate 32 5)

/-- Reads `n` lengths of words, in which a symbol may repeat the last length or a zero. -/
def readLengths? (input : ByteArray) (code : PrefixCode) :
    Nat → Nat → Nat → List Nat → Option (List Nat × Nat)
  | 0, _, _, _ => none
  | fuel + 1, n, position, lengths =>
    if lengths.length = n then some (lengths.reverse, position)
    else
      match code.read (bit? input) position with
      | none => none
      | some (s, position) =>
        if s < 16 then readLengths? input code fuel n position (s :: lengths)
        else
          let source : Option (Nat × Nat × Nat) :=
            if s = 16 then lengths.head?.map (·, 3, 2)
            else if s = 17 then some (0, 3, 3)
            else some (0, 11, 7)
          match source with
          | none => none
          | some (length, least, further) =>
            match bits? input further position with
            | none => none
            | some (more, position) =>
              let lengths := List.replicate (least + more) length ++ lengths
              if n < lengths.length then none
              else readLengths? input code fuel n position lengths

/-- A code of given lengths, which has to be complete or meagre. -/
def codeOf? (lengths : List Nat) : Option PrefixCode :=
  (PrefixCode.ofLengths? lengths).filter fun code => code.isComplete || code.isMeagre

/-- Reads the two codes that a block brings. The end of the block has to have a word. -/
def readCodes? (input : ByteArray) (position : Nat) :
    Option (PrefixCode × PrefixCode × Nat) := do
  let (literalCount, position) ← bits? input 5 position
  let (distanceCount, position) ← bits? input 5 position
  let (lengthCount, position) ← bits? input 4 position
  let literalCount := literalCount + 257
  let distanceCount := distanceCount + 1
  let lengthCount := lengthCount + 4
  if literalCount > 286 || distanceCount > 30 then none
  let given ← (List.range lengthCount).mapM fun i => bits? input 3 (position + 3 * i)
  let place (s : Nat) : Nat := ((lengthOrder.zip (given.map (·.1))).lookup s).getD 0
  let code ← (PrefixCode.ofLengths? ((List.range 19).map place)).filter (·.isComplete)
  let total := literalCount + distanceCount
  let (lengths, position) ← readLengths? input code (total + 1) total
    (position + 3 * lengthCount) []
  let literalLengths := lengths.take literalCount
  if literalLengths[256]? = some 0 then none
  let literals ← codeOf? literalLengths
  let distances ← codeOf? (lengths.drop literalCount)
  return (literals, distances, position)

/-- Copies a block that is not compressed. -/
def copyStored (input : ByteArray) (position : Nat) (out : ByteArray) :
    Option (Nat × ByteArray) := do
  let start := 8 * ((position + 7) / 8)
  let (length, start) ← bits? input 16 start
  let (inverse, start) ← bits? input 16 start
  if length + inverse ≠ 65535 then none
  if input.size < start / 8 + length then none
  return (start + 8 * length, out ++ input.extract (start / 8) (start / 8 + length))

/-- Expands the blocks up to the last one; each takes three bits at least. -/
def expandBlocks (input : ByteArray) : Nat → Nat → ByteArray → Option (Nat × ByteArray)
  | 0, _, _ => none
  | fuel + 1, position, out => do
    let (last, position) ← bits? input 1 position
    let (kind, position) ← bits? input 2 position
    let symbols := 8 * input.size + 1
    let (position, out) ←
      if kind = 0 then copyStored input position out
      else if kind = 1 then do
        expandSymbols input (← fixedLiterals) (← fixedDistances) symbols position out
      else if kind = 2 then do
        let (literals, distances, position) ← readCodes? input position
        expandSymbols input literals distances symbols position out
      else none
    if last = 1 then some (position, out) else expandBlocks input fuel position out

/-- The bytes that the stream from a byte on stands for, and the byte behind it. -/
def expand? (input : ByteArray) (start : Nat) : Option (ByteArray × Nat) :=
  (expandBlocks input (8 * input.size + 1) (8 * start) .empty).map fun (position, out) =>
    (out, (position + 7) / 8)

/-- Whether two bytes begin a wrapped stream: the method is known, the window is small enough, no
dictionary is meant, and the check holds. -/
def isWrapping (method flags : Nat) : Bool :=
  method % 16 = 8 && method / 16 ≤ 7 && (flags / 32) % 2 = 0 && (256 * method + flags) % 31 = 0

/-- The bytes that a wrapped stream stands for. Four bytes have to follow, the checksum, but they
may be any. -/
def expandWrapped? (input : ByteArray) : Option ByteArray := do
  let (method, _) ← bits? input 8 0
  let (flags, _) ← bits? input 8 8
  if !isWrapping method flags then none
  let (out, finish) ← expand? input 2
  if finish + 4 ≤ input.size then some out else none

end Quotation.Deflate
