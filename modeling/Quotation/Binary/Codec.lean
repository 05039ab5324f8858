import Quotation.Binary.Word
import Quotation.Uuid

/-!
# The binary format

A `Codec` writes values as byte strings and reads them off the front of one. Numbers are
little-endian and of fixed width, a choice is the 32-bit number of its case, an optional value is
marked by a byte 0 or 1, and texts and lists begin with their 64-bit length. There are no separators
and no padding, so a written value ends where its last part ends.

* `Front`: reading a value off the front of a byte string;
* primitive codecs: `byte`, `word32`, `word64`, `counted`, `text`, `uuid`, `octets`;
* building blocks: `pair`, `imap`, `option`, `list`, `constant`, `arm`, `switch`.

`Codec.Fits` names the values that have a written form: every length in them is below 2 ^ 64.
-/

namespace Quotation.Binary

/-- Why a byte string begins with no written value. -/
inductive DecodeError
  /-- The bytes end inside the value. -/
  | endOfInput
  /-- A text is not UTF-8. -/
  | badText
  /-- An optional value is marked by another byte than 0 and 1. -/
  | badMark (mark : UInt8)
  /-- A choice has no case of this number. -/
  | unknownCase (index : UInt32)
  /-- An identifier is announced with another length than sixteen. -/
  | identifierLength (length : Nat)
  deriving DecidableEq, Repr

/-- Reads a value off the front of a byte string and leaves the bytes behind it. -/
def Front (α : Type) : Type :=
  List UInt8 → Except DecodeError (α × List UInt8)

namespace Front

variable {α β : Type}

/-- Reads nothing. -/
protected def pure (a : α) : Front α :=
  fun bs => .ok (a, bs)

/-- Reads one value, then whatever depends on it from the bytes behind. -/
protected def bind (r : Front α) (f : α → Front β) : Front β :=
  fun bs => match r bs with
    | .error e => .error e
    | .ok (a, rest) => f a rest

instance : Monad Front where
  pure := Front.pure
  bind := Front.bind

/-- Reads nothing and fails. -/
def fail (e : DecodeError) : Front α :=
  fun _ => .error e

/-- The next byte. -/
def next : Front UInt8
  | [] => .error .endOfInput
  | b :: rest => .ok (b, rest)

/-- `n` values, one behind the other. -/
def replicate (r : Front α) : Nat → Front (List α)
  | 0 => pure []
  | n + 1 => do
    let a ← r
    let more ← replicate r n
    return a :: more

/-- The next `n` bytes. -/
def bytes (n : Nat) : Front (List UInt8) :=
  replicate next n

end Front

/-- A way to write the values of a type and to read them back. -/
structure Codec (α : Type) where
  Fits : α → Prop
  encode : α → List UInt8
  decode : Front α

namespace Codec

variable {α β : Type}

/-- One byte. -/
def byte : Codec UInt8 where
  Fits _ := True
  encode b := [b]
  decode := Front.next

/-- A 32-bit number in four bytes. -/
def word32 : Codec UInt32 where
  Fits _ := True
  encode x := littleEndian 4 x.toNat
  decode := do
    let bs ← Front.bytes 4
    return UInt32.ofNat (ofLittleEndian bs)

/-- A 64-bit number in eight bytes. -/
def word64 : Codec UInt64 where
  Fits _ := True
  encode x := littleEndian 8 x.toNat
  decode := do
    let bs ← Front.bytes 8
    return UInt64.ofNat (ofLittleEndian bs)

/-- A list of values behind their number. -/
def list (c : Codec α) : Codec (List α) where
  Fits xs := xs.length < UInt64.size ∧ ∀ a ∈ xs, c.Fits a
  encode xs := word64.encode (UInt64.ofNat xs.length) ++ xs.flatMap c.encode
  decode := do
    let n ← word64.decode
    Front.replicate c.decode n.toNat

/-- A byte string behind its length. -/
def counted : Codec (List UInt8) :=
  list byte

/-- A text: its UTF-8 bytes behind their number. -/
def text : Codec String where
  Fits s := counted.Fits s.toByteArray.data.toList
  encode s := counted.encode s.toByteArray.data.toList
  decode := do
    let bs ← counted.decode
    match String.fromUTF8? ⟨bs.toArray⟩ with
    | some s => return s
    | none => Front.fail .badText

/-- An identifier: its sixteen octets behind their number. -/
def uuid : Codec Uuid where
  Fits _ := True
  encode u := counted.encode u.octets.toList
  decode := do
    let bs ← counted.decode
    match Uuid.ofList? bs with
    | some u => return u
    | none => Front.fail (.identifierLength bs.length)

/-- Exactly `n` octets, without a length. -/
def octets (n : Nat) : Codec (Vector UInt8 n) where
  Fits _ := True
  encode v := v.toList
  decode := do
    let bs ← Front.bytes n
    if h : bs.toArray.size = n then return ⟨bs.toArray, h⟩ else Front.fail .endOfInput

/-- One value behind another. -/
def pair (c : Codec α) (d : Codec β) : Codec (α × β) where
  Fits p := c.Fits p.1 ∧ d.Fits p.2
  encode p := c.encode p.1 ++ d.encode p.2
  decode := do
    let a ← c.decode
    let b ← d.decode
    return (a, b)

/-- The same bytes for another presentation of the values. -/
def imap (c : Codec α) (f : α → β) (g : β → α) : Codec β where
  Fits b := c.Fits (g b)
  encode b := c.encode (g b)
  decode := do
    let a ← c.decode
    return f a

/-- An optional value behind the mark 0 or 1. -/
def option (c : Codec α) : Codec (Option α) where
  Fits o := ∀ a ∈ o, c.Fits a
  encode
    | none => [0]
    | some a => 1 :: c.encode a
  decode := do
    let mark ← Front.next
    if mark = 0 then return none
    else if mark = 1 then do
      let a ← c.decode
      return some a
    else Front.fail (.badMark mark)

/-- A single value, which takes no bytes. -/
def constant (a : α) : Codec α where
  Fits x := x = a
  encode _ := []
  decode := pure a

/-- One case of a choice: the values that `f` makes, with `g` to undo it. -/
def arm (c : Codec α) (f : α → β) (g : β → Option α) : Codec β where
  Fits b := ∃ a ∈ g b, c.Fits a
  encode b := (g b).elim [] c.encode
  decode := do
    let a ← c.decode
    return f a

/-- A choice: the number of the case, then the value by the codec of that case. -/
def switch (index : α → UInt32) (arms : UInt32 → Option (Codec α)) : Codec α where
  Fits a := ∃ c ∈ arms (index a), c.Fits a
  encode a := word32.encode (index a) ++ (arms (index a)).elim [] (·.encode a)
  decode := do
    let i ← word32.decode
    match arms i with
    | some c => c.decode
    | none => Front.fail (.unknownCase i)

/-- Reads a value that may have further bytes behind it. -/
def ofBytes (c : Codec α) (bs : List UInt8) : Except DecodeError α :=
  (c.decode bs).map Prod.fst

end Codec

end Quotation.Binary
