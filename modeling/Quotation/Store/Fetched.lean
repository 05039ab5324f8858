import Quotation.Store.Table

/-!
# Fetched rows

A row as a statement returns it, with the names of its columns. Its values are taken out by place
and kind; a value of another kind is a fault that names the column.
-/

namespace Quotation.Store

/-- A row with the names of its columns. -/
structure Fetched where
  names : List String
  cells : Row
  deriving DecidableEq, Repr

namespace Fetched

/-- The value in a column. -/
def cell (r : Fetched) (i : Nat) : Cell :=
  r.cells.cell i

/-- The fault of a value of another kind. -/
def wrongKind (r : Fetched) (i : Nat) : ColumnError :=
  .wrongKind i (r.names[i]?.getD "") (r.cell i).kind

/-- A text. -/
def text (r : Fetched) (i : Nat) : Except ColumnError String :=
  match r.cell i with
  | .text s => .ok s
  | _ => .error (r.wrongKind i)

/-- A text or nothing. -/
def text? (r : Fetched) (i : Nat) : Except ColumnError (Option String) :=
  match r.cell i with
  | .text s => .ok (some s)
  | .null => .ok none
  | _ => .error (r.wrongKind i)

/-- A byte string. -/
def blob (r : Fetched) (i : Nat) : Except ColumnError (List UInt8) :=
  match r.cell i with
  | .blob bytes => .ok bytes
  | _ => .error (r.wrongKind i)

/-- An integer. -/
def integer (r : Fetched) (i : Nat) : Except ColumnError Int64 :=
  match r.cell i with
  | .integer n => .ok n
  | _ => .error (r.wrongKind i)

/-- A 64-bit number that is kept as an integer. -/
def word (r : Fetched) (i : Nat) : Except ColumnError UInt64 :=
  (r.integer i).map Int64.toUInt64

/-- An integer that is a 32-bit number. -/
def word32 (r : Fetched) (i : Nat) : Except ColumnError UInt32 := do
  let n ← r.integer i
  if 0 ≤ n.toInt ∧ n.toInt < UInt32.size then return UInt32.ofNat n.toInt.toNat
  else throw (.outOfRange i n.toInt)

/-- A truth value: an integer of 32 bits with sign, of which zero alone is false. -/
def flag (r : Fetched) (i : Nat) : Except ColumnError Bool := do
  let n ← r.integer i
  if Int32.minValue.toInt ≤ n.toInt ∧ n.toInt ≤ Int32.maxValue.toInt then return n != 0
  else throw (.outOfRange i n.toInt)

end Fetched

/-- A value of the right kind in a column, or the fault of one that stands for nothing. -/
def readable {ε α : Type} (column : Nat) (fault : ε → ColumnFault) (r : Except ε α) :
    Except ColumnError α :=
  r.mapError fun e => .unreadable column (fault e)

/-- The same for a value that is found or not. -/
def readable? {α : Type} (column : Nat) (fault : ColumnFault) (o : Option α) :
    Except ColumnError α :=
  o.elim (.error (.unreadable column fault)) .ok

end Quotation.Store
