import Quotation.Binary.Codec
import Quotation.Files.Basic

/-!
# Databases as bytes

The binary form in which a database lies in a file.

* `Database.binary`, with `Table.binary` and `Cell.binary`;
* `FileContent.ofBytes`, `FileContent.toBytes`: a file that begins with the mark of a database holds
  one, and any other holds bytes.
-/

namespace Quotation

namespace Store

/-- A number with sign as a 64-bit number. -/
def integerBinary : Binary.Codec Int64 :=
  Binary.Codec.word64.imap UInt64.toInt64 Int64.toUInt64

/-- A truth value as a byte. -/
def boolBinary : Binary.Codec Bool :=
  Binary.Codec.byte.imap (· != 0) fun b => if b then 1 else 0

/-- A small number. -/
def numberBinary : Binary.Codec Nat :=
  Binary.Codec.word64.imap UInt64.toNat UInt64.ofNat

namespace Cell

/-- The number of the case of a value. -/
def index : Cell → UInt32
  | null => 0
  | integer _ => 1
  | text _ => 2
  | blob _ => 3

/-- The integer in a value. -/
def integer? : Cell → Option Int64
  | integer n => some n
  | _ => none

/-- The text in a value. -/
def text? : Cell → Option String
  | text s => some s
  | _ => none

/-- The bytes in a value. -/
def blob? : Cell → Option (List UInt8)
  | blob bytes => some bytes
  | _ => none

/-- The binary form. -/
def binary : Binary.Codec Cell :=
  .switch index fun i =>
    if i = 0 then some (.constant null)
    else if i = 1 then some (integerBinary.arm integer integer?)
    else if i = 2 then some (Binary.Codec.text.arm text text?)
    else if i = 3 then some (Binary.Codec.counted.arm blob blob?)
    else none

end Cell

namespace Affinity

/-- The number of a kind that a column prefers. -/
def index : Affinity → UInt32
  | text => 0
  | integer => 1
  | blob => 2

/-- The binary form. -/
def binary : Binary.Codec Affinity :=
  .switch index fun i =>
    if i = 0 then some (.constant text)
    else if i = 1 then some (.constant integer)
    else if i = 2 then some (.constant blob)
    else none

end Affinity

/-- The binary form of a name is that of its text. -/
def Identifier.binary : Binary.Codec Identifier :=
  Binary.Codec.text.imap .ofText (·.text)

/-- The binary form. -/
def Column.binary : Binary.Codec Column :=
  (Identifier.binary.pair (Affinity.binary.pair boolBinary)).imap
    (fun (title, affinity, nullable) => ⟨title, affinity, nullable⟩)
    fun c => (c.title, c.affinity, c.nullable)

/-- The binary form. -/
def Table.binary : Binary.Codec Table :=
  (Identifier.binary.pair (Column.binary.list.pair (numberBinary.list.pair
      Cell.binary.list.list))).imap
    (fun (title, columns, key, rows) => ⟨title, columns, key, rows⟩)
    fun t => (t.title, t.columns, t.key, t.rows)

/-- The binary form. It has no place for views, which are not made here. -/
def Database.binary : Binary.Codec Database :=
  (integerBinary.pair (Table.binary.list.pair Identifier.binary.list)).imap
    (fun (version, tables, indexes) => ⟨version.toInt, { tables, indexes }⟩)
    fun db => (Int64.ofInt db.version, db.tables, db.schema.indexes)

end Store

namespace FileContent

/-- The bytes that a database in a file begins with. -/
def mark : List UInt8 := "quotation store\n".toUTF8.toList

/-- What the bytes of a file hold. -/
def ofBytes (bs : List UInt8) : FileContent :=
  if mark.isPrefixOf bs then
    match Store.Database.binary.ofBytes (bs.drop mark.length) with
    | .ok db => .database db
    | .error _ => .bytes bs
  else .bytes bs

/-- The bytes of a file. -/
def toBytes : FileContent → List UInt8
  | bytes bs => bs
  | database db => mark ++ Store.Database.binary.encode db

end FileContent

end Quotation
