import Quotation.Text.Digits

/-!
# Cells

The values that a table holds, in four kinds that are ordered one behind the other: nothing,
integers, texts, byte strings.

* `Cell`, `Cell.Kind`, and the order `Cell.le`;
* `Affinity`: the kind that a column prefers, and what it makes of a value that is put into it.
-/

namespace Quotation.Store

/-- A value in a table. -/
inductive Cell
  | null
  | integer (n : Int64)
  | text (s : String)
  | blob (bytes : List UInt8)
  deriving DecidableEq, Repr

/-- The kind of a value. -/
inductive Cell.Kind
  | null
  | integer
  | text
  | blob
  deriving DecidableEq, Repr

namespace Cell

/-- The kind of a value. -/
def kind : Cell → Kind
  | null => .null
  | integer _ => .integer
  | text _ => .text
  | blob _ => .blob

/-- The name of a kind. -/
def Kind.name : Kind → String
  | .null => "Null"
  | .integer => "Integer"
  | .text => "Text"
  | .blob => "Blob"

/-- The place of a kind in the order. -/
def Kind.rank : Kind → Nat
  | .null => 0
  | .integer => 1
  | .text => 2
  | .blob => 3

/-- The order of values: by kind, then integers by size, texts and byte strings by their first
difference. -/
def le : Cell → Cell → Bool
  | integer m, integer n => decide (m ≤ n)
  | text s, text t => !decide (t < s)
  | blob a, blob b => !decide (b < a)
  | a, b => decide (a.kind.rank ≤ b.kind.rank)

/-- Whether two values count as equal in a condition; nothing equals nothing. -/
def equals (a b : Cell) : Bool :=
  a.kind != .null && a == b

/-- A text, or nothing. -/
def ofText? (s : Option String) : Cell :=
  s.elim .null .text

/-- A truth value as 1 or 0. -/
def ofBool (b : Bool) : Cell :=
  .integer (if b then 1 else 0)

/-- A 64-bit number, of which the larger half counts as negative. -/
def ofWord (n : UInt64) : Cell :=
  .integer n.toInt64

end Cell

/-- The kind of values that a column prefers. -/
inductive Affinity
  | text
  | integer
  | blob
  deriving DecidableEq, Repr

/-- The six characters that may surround a number in a text. -/
def isNumberBlank (c : Char) : Bool :=
  c == ' ' || ('\t' ≤ c && c ≤ '\r')

/-- The integer that a text spells, if 64 bits hold it. -/
def spelledInteger? (s : String) : Option Int64 :=
  let cs := ((s.toList.dropWhile isNumberBlank).reverse.dropWhile isNumberBlank).reverse
  let value : Option Int := match cs with
    | '-' :: digits => (Text.readNat? digits).map fun n => -(n : Int)
    | '+' :: digits => (Text.readNat? digits).map fun n => (n : Int)
    | digits => (Text.readNat? digits).map fun n => (n : Int)
  (value.filter fun n => decide (Int64.minValue.toInt ≤ n ∧ n ≤ Int64.maxValue.toInt)).map
    Int64.ofInt

/-- What a column keeps of a value: a column of texts writes integers out in digits, a column of
integers reads texts that spell one, and everything else is kept as it is given. -/
def Affinity.convert : Affinity → Cell → Cell
  | .text, .integer n => .text (toString n.toInt)
  | .integer, .text s => (spelledInteger? s).elim (.text s) .integer
  | _, c => c

end Quotation.Store
