/-!
# Prefix codes

A prefix code is a binary tree with a symbol at each leaf; a symbol is read by following bits from
the root. The codes here are canonical: the lengths of the words determine them, as shorter words
come before longer ones and words of one length stand in the order of their symbols.

* `PrefixCode`, `PrefixCode.read`;
* `PrefixCode.ofLengths?`: the code of given lengths;
* `PrefixCode.isComplete`: whether every sequence of bits leads to a symbol.
-/

namespace Quotation

/-- A binary tree with symbols at its leaves, some of which may be unused. -/
inductive PrefixCode
  | unused
  | symbol (s : Nat)
  | branch (zero one : PrefixCode)
  deriving DecidableEq, Repr, Inhabited

namespace PrefixCode

/-- Reads a symbol from the bits behind a position, and says where its word ends. -/
def read (bit? : Nat → Option Bool) : PrefixCode → Nat → Option (Nat × Nat)
  | unused, _ => none
  | symbol s, position => some (s, position)
  | branch zero one, position =>
    match bit? position with
    | none => none
    | some false => zero.read bit? (position + 1)
    | some true => one.read bit? (position + 1)

/-- Whether every sequence of bits leads to a symbol. -/
def isComplete : PrefixCode → Bool
  | unused => false
  | symbol _ => true
  | branch zero one => zero.isComplete && one.isComplete

/-- Whether there is no symbol but one, behind a single bit, or none at all. -/
def isMeagre : PrefixCode → Bool
  | unused => true
  | branch (symbol _) unused => true
  | _ => false

/-- The tree below a node of the given depth, from left to right, for symbols in the order of their
words; what is returned beside it are the symbols for which no room was left. -/
def grow : Nat → Nat → List (Nat × Nat) → PrefixCode × List (Nat × Nat)
  | _, _, [] => (unused, [])
  | 0, _, (_, s) :: rest => (symbol s, rest)
  | n + 1, depth, (length, s) :: rest =>
    if length = depth then (symbol s, rest)
    else
      let (zero, rest) := grow n (depth + 1) ((length, s) :: rest)
      let (one, rest) := grow n (depth + 1) rest
      (branch zero one, rest)

/-- The longest word of a code. -/
def maxLength : Nat := 15

/-- The symbols that have a word of the given length. -/
def ofLength (lengths : List Nat) (length : Nat) : List (Nat × Nat) :=
  lengths.zipIdx.filter fun entry => entry.1 = length

/-- The code in which the word of each symbol has the given length; length 0 stands for a symbol
without a word. There is none if the words would be too many. -/
def ofLengths? (lengths : List Nat) : Option PrefixCode :=
  let ordered := (List.range maxLength).flatMap fun n => ofLength lengths (n + 1)
  match grow maxLength 0 ordered with
  | (code, []) => some code
  | (_, _ :: _) => none

end PrefixCode

end Quotation
