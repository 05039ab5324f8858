import Quotation.Text.Digits

/-!
# Byte strings as hexadecimal text

Two digits a byte, the high half first.

* `encode`: lower-case digits;
* `decode`: digits of either case, with the first reason to refuse a text;
* `decodeDigits_flatMap_digits`: what is written reads back.
-/

namespace Quotation.Text.Hex

/-- Why a text is no hexadecimal byte string. -/
inductive Error
  /-- The text has an odd number of bytes. -/
  | oddLength
  /-- A byte that is no digit, as the character with its number, and its place in the text. -/
  | badDigit (found : Char) (position : Nat)
  deriving DecidableEq, Repr

/-- The two digits of a byte. -/
def digits (b : UInt8) : List Char :=
  [hexDigit (b.toNat / 16), hexDigit (b.toNat % 16)]

/-- A byte string as lower-case hexadecimal digits. -/
def encode (bs : List UInt8) : String :=
  String.ofList (bs.flatMap digits)

/-- Reads pairs of digits; `position` is the place of the first one in the whole text. -/
def decodeFrom (position : Nat) : List Char → Except Error (List UInt8)
  | [] => .ok []
  | [_] => .error .oddLength
  | hi :: lo :: rest =>
    match hexValue? hi, hexValue? lo with
    | none, _ => .error (.badDigit hi position)
    | some _, none => .error (.badDigit lo (position + 1))
    | some h, some l => (decodeFrom (position + 2) rest).map (UInt8.ofNat (16 * h + l) :: ·)

/-- The byte string that a list of digits spells. An odd length is reported before any digit. -/
def decodeDigits (cs : List Char) : Except Error (List UInt8) :=
  if cs.length % 2 = 1 then .error .oddLength else decodeFrom 0 cs

/-- The bytes of a text, each as the character with its number. -/
def byteChars (s : String) : List Char :=
  s.toByteArray.data.toList.map Char.ofUInt8

/-- The byte string that a text spells, its length and places counted in bytes. -/
def decode (s : String) : Except Error (List UInt8) :=
  decodeDigits (byteChars s)

theorem decodeFrom_digits (position : Nat) (b : UInt8) (rest : List Char) :
    decodeFrom position (digits b ++ rest) = (decodeFrom (position + 2) rest).map (b :: ·) := by
  have hb := b.toNat_lt
  have hhi : hexValue? (hexDigit (b.toNat / 16)) = some (b.toNat / 16) :=
    hexValue?_hexDigit (by omega)
  have hlo : hexValue? (hexDigit (b.toNat % 16)) = some (b.toNat % 16) :=
    hexValue?_hexDigit (by omega)
  have hsum : UInt8.ofNat (16 * (b.toNat / 16) + b.toNat % 16) = b := by
    rw [Nat.div_add_mod]
    exact UInt8.ofNat_toNat
  simp [digits, decodeFrom, hhi, hlo, hsum]

theorem decodeFrom_flatMap_digits (position : Nat) (bs : List UInt8) :
    decodeFrom position (bs.flatMap digits) = .ok bs := by
  induction bs generalizing position with
  | nil => rfl
  | cons b bs ih => simp [decodeFrom_digits, ih, Except.map]

theorem length_flatMap_digits (bs : List UInt8) : (bs.flatMap digits).length = 2 * bs.length := by
  induction bs with
  | nil => rfl
  | cons b bs ih => simp [digits, ih]; omega

/-- What is written reads back. -/
theorem decodeDigits_flatMap_digits (bs : List UInt8) :
    decodeDigits (bs.flatMap digits) = .ok bs := by
  have heven : ¬(bs.flatMap digits).length % 2 = 1 := by
    rw [length_flatMap_digits]
    omega
  rw [decodeDigits, if_neg heven, decodeFrom_flatMap_digits]

/-- A character between single quotes. The quote, the backslash and the characters below U+0100
without a visible form are escaped. -/
def shown (c : Char) : String :=
  let quote := Char.ofNat 39
  let n := c.toNat
  let inner : List Char :=
    if n = 0 then ['\\', '0']
    else if n = 9 then ['\\', 't']
    else if n = 10 then ['\\', 'n']
    else if n = 13 then ['\\', 'r']
    else if n = 39 ∨ n = 92 then ['\\', c]
    else if n < 32 ∨ (127 ≤ n ∧ n ≤ 160) ∨ n = 173 then
      ['\\', 'u', '\x7b'] ++ Nat.toDigits 16 n ++ ['\x7d']
    else [c]
  String.ofList (quote :: inner ++ [quote])

/-- The sentence that names an error. -/
def Error.message : Error → String
  | .oddLength => "Odd number of digits"
  | .badDigit found position =>
    "Invalid character " ++ shown found ++ " at position " ++ toString position

end Quotation.Text.Hex
