/-!
# Bytes taken for a text

Bytes that are not the UTF-8 form of a text are taken for one by putting the replacement character
in the place of what is broken, once for each part that is as long as it can be.

* `firstChar?`: the character that some bytes begin with;
* `brokenTail`: how far a broken character goes;
* `lossy`: the text that bytes are taken for.
-/

namespace Quotation.Text

/-- The character that some bytes begin with. It has four bytes at most. -/
def firstChar? (bs : List UInt8) : Option Char :=
  ByteArray.utf8DecodeChar? ⟨(bs.take 4).toArray⟩ 0

/-- Whether a byte is one that stands in a character, but not at its beginning. -/
def isContinuation (b : UInt8) : Bool :=
  0x80 ≤ b && b ≤ 0xBF

/-- Whether a second byte may stand behind the first one of a character of three or four bytes.
There are no characters with more bytes than they need, no surrogates and none beyond the last one.
-/
def mayFollow (first second : UInt8) : Bool :=
  if first = 0xE0 then 0xA0 ≤ second && second ≤ 0xBF
  else if first = 0xED then 0x80 ≤ second && second ≤ 0x9F
  else if first = 0xF0 then 0x90 ≤ second && second ≤ 0xBF
  else if first = 0xF4 then 0x80 ≤ second && second ≤ 0x8F
  else 0xE1 ≤ first && first ≤ 0xF3 && isContinuation second

/-- How many of the bytes behind the first one belong to the same broken character. -/
def brokenTail (first : UInt8) : List UInt8 → Nat
  | [] => 0
  | second :: rest =>
    if !mayFollow first second then 0
    else if 0xF0 ≤ first && rest.head?.any isContinuation then 2
    else 1

/-- The characters that some bytes are taken for, of which the first ones belong to a character that
has been seen. -/
def lossyChars : Nat → List UInt8 → List Char
  | _, [] => []
  | seen + 1, _ :: bs => lossyChars seen bs
  | 0, b :: bs =>
    match firstChar? (b :: bs) with
    | some c => c :: lossyChars (c.utf8Size - 1) bs
    | none => '\uFFFD' :: lossyChars (brokenTail b bs) bs

/-- The text that some bytes are taken for. -/
def lossy (bs : List UInt8) : String :=
  String.ofList (lossyChars 0 bs)

end Quotation.Text
