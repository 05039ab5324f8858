import Quotation.Binary.Word

/-!
# Digests

The hash function BLAKE3 with its default output of thirty-two bytes. A byte string is cut into
chunks of 1024 bytes, each chunk is compressed in blocks of 64 bytes, and the results are joined in
pairs up a binary tree whose left half is always complete.

* `Digest.hash`: the digest of a byte string.
-/

namespace Quotation.Digest

/-- Eight words: what is carried from block to block and up the tree. -/
abbrev Chain := Vector UInt32 8

/-- Sixteen words: a block, or the state of a compression. -/
abbrev Block := Vector UInt32 16

/-- The chain that every chunk and every inner node begins with. -/
def start : Chain :=
  #v[0x6A09E667, 0xBB67AE85, 0x3C6EF372, 0xA54FF53A, 0x510E527F, 0x9B05688C, 0x1F83D9AB, 0x5BE0CD19]

/-- Where the words of a block go between two rounds. -/
def schedule : Vector (Fin 16) 16 :=
  #v[2, 6, 3, 10, 7, 0, 4, 13, 1, 11, 12, 5, 9, 14, 15, 8]

/-- Marks on a compression: the first and the last block of a chunk, an inner node, the root. -/
def chunkStart : UInt32 := 1
/-- The mark of the last block of a chunk. -/
def chunkEnd : UInt32 := 2
/-- The mark of an inner node. -/
def parent : UInt32 := 4
/-- The mark of the root. -/
def root : UInt32 := 8

/-- Turns a word to the right. -/
def rotate (w n : UInt32) : UInt32 :=
  (w >>> n) ||| (w <<< (32 - n))

/-- Mixes two words of a block into four words of the state. -/
def mix (v : Block) (a b c d : Fin 16) (x y : UInt32) : Block :=
  let va := v[a] + v[b] + x
  let vd := rotate (v[d] ^^^ va) 16
  let vc := v[c] + vd
  let vb := rotate (v[b] ^^^ vc) 12
  let va := va + vb + y
  let vd := rotate (vd ^^^ va) 8
  let vc := vc + vd
  let vb := rotate (vb ^^^ vc) 7
  (((v.set a va).set b vb).set c vc).set d vd

/-- Mixes a block into the state: down the columns, then along the diagonals. -/
def round (v m : Block) : Block :=
  let v := mix v 0 4 8 12 m[0] m[1]
  let v := mix v 1 5 9 13 m[2] m[3]
  let v := mix v 2 6 10 14 m[4] m[5]
  let v := mix v 3 7 11 15 m[6] m[7]
  let v := mix v 0 5 10 15 m[8] m[9]
  let v := mix v 1 6 11 12 m[10] m[11]
  let v := mix v 2 7 8 13 m[12] m[13]
  mix v 3 4 9 14 m[14] m[15]

/-- A number of rounds; the words of the block change places between them. -/
def rounds : Nat → Block → Block → Block
  | 0, v, _ => v
  | n + 1, v, m => rounds n (round v m) (Vector.ofFn fun i => m[schedule[i]])

/-- What is compressed last at a place of the tree: whether it is the root is not known yet. -/
structure Node where
  chain : Chain
  block : Block
  counter : UInt64
  length : UInt32
  marks : UInt32

/-- The chain that a node hands on, under the marks given in addition. -/
def Node.compress (n : Node) (marks : UInt32) : Chain :=
  let h := n.chain
  let v : Block := #v[h[0], h[1], h[2], h[3], h[4], h[5], h[6], h[7], start[0], start[1], start[2],
    start[3], n.counter.toUInt32, (n.counter >>> 32).toUInt32, n.length, n.marks ||| marks]
  let v := rounds 7 v n.block
  Vector.ofFn fun i : Fin 8 => v[i.val] ^^^ v[i.val + 8]

/-- Sixty-four bytes as words; a shorter block is filled up with zeros. -/
def blockOf (bs : List UInt8) : Block :=
  let padded := bs.toArray
  Vector.ofFn fun i : Fin 16 =>
    UInt32.ofNat <| Binary.ofLittleEndian <|
      (List.range 4).map fun j => padded[4 * i.val + j]?.getD 0

/-- The node of a chunk of at most 1024 bytes, block by block. -/
def chunk (counter : UInt64) (chain : Chain) (marks : UInt32) (bs : List UInt8) : Node :=
  if bs.length ≤ 64 then ⟨chain, blockOf bs, counter, bs.length.toUInt32, marks ||| chunkEnd⟩
  else
    let node : Node := ⟨chain, blockOf (bs.take 64), counter, 64, marks⟩
    chunk counter (node.compress 0) 0 (bs.drop 64)
termination_by bs.length
decreasing_by simp only [List.length_drop]; omega

/-- The number of bytes in the left half: the largest power of two of chunks that leaves some. -/
def leftLength (n : Nat) : Nat :=
  1024 <<< ((n - 1) / 1024).log2

theorem leftLength_lt {n : Nat} (h : 1024 < n) : leftLength n < n := by
  have hpow : 2 ^ ((n - 1) / 1024).log2 ≤ (n - 1) / 1024 :=
    Nat.log2_self_le (by omega)
  have hle : 1024 * 2 ^ ((n - 1) / 1024).log2 ≤ 1024 * ((n - 1) / 1024) :=
    Nat.mul_le_mul_left _ hpow
  have hdiv : 1024 * ((n - 1) / 1024) ≤ n - 1 := Nat.mul_div_le _ _
  rw [leftLength, Nat.shiftLeft_eq]
  omega

theorem leftLength_pos (n : Nat) : 0 < leftLength n := by
  have : 0 < 2 ^ ((n - 1) / 1024).log2 := Nat.two_pow_pos _
  rw [leftLength, Nat.shiftLeft_eq]
  omega

/-- The node of a byte string whose first chunk has the given number. -/
def tree (counter : UInt64) (bs : List UInt8) : Node :=
  if 1024 < bs.length then
    let left := leftLength bs.length
    let l := (tree counter (bs.take left)).compress 0
    let r := (tree (counter + UInt64.ofNat (left / 1024)) (bs.drop left)).compress 0
    ⟨start, l ++ r, 0, 64, parent⟩
  else chunk counter start chunkStart bs
termination_by bs.length
decreasing_by
  · have := leftLength_lt (n := bs.length) (by omega)
    simp only [List.length_take]
    omega
  · have := leftLength_pos bs.length
    simp only [List.length_drop]
    omega

/-- The bytes of a chain, each word with its lowest byte first. -/
def bytes (chain : Chain) : Vector UInt8 32 :=
  Vector.ofFn fun i => (chain[i.val / 4] >>> UInt32.ofNat (8 * (i.val % 4))).toUInt8

/-- The digest of a byte string. -/
def hash (bs : List UInt8) : Vector UInt8 32 :=
  bytes ((tree 0 bs).compress root)

end Quotation.Digest
