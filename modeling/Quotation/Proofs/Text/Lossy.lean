import Quotation.Files.Path
import Quotation.Proofs.Text.Ascii

/-!
# Bytes taken for a text

The bytes of a text are taken for that text. So a path is the text that it is taken for exactly if
it is one.

* `Text.firstChar?_append`, `Text.lossyChars_append`: one character;
* `Text.lossy_byteList`: a whole text;
* `RawPath.text_ofText`, `RawPath.ofText_text_iff`.
-/

namespace Quotation

namespace Text

/-- Bytes that begin with those of a character begin with that character. -/
theorem firstChar?_append (c : Char) (bs : List UInt8) :
    firstChar? (String.utf8EncodeChar c ++ bs) = some c := by
  have hlength : (String.utf8EncodeChar c).length ≤ 4 := by
    rw [String.length_utf8EncodeChar]
    exact c.utf8Size_le_four
  rw [firstChar?, List.take_append, List.take_of_length_le hlength]
  have happend : ∀ xs ys : List UInt8, (⟨(xs ++ ys).toArray⟩ : ByteArray) =
      xs.toByteArray ++ ys.toByteArray := by
    intro xs ys
    apply ByteArray.ext
    simp
  rw [happend]
  exact ByteArray.utf8DecodeChar?_utf8EncodeChar_append

/-- Bytes of a character that has been seen are left out. -/
theorem lossyChars_length_append (xs bs : List UInt8) :
    lossyChars xs.length (xs ++ bs) = lossyChars 0 bs := by
  induction xs with
  | nil => rfl
  | cons x xs ih => rw [List.length_cons, List.cons_append, lossyChars, ih]

theorem lossyChars_append (c : Char) (bs : List UInt8) :
    lossyChars 0 (String.utf8EncodeChar c ++ bs) = c :: lossyChars 0 bs := by
  have hlength := String.length_utf8EncodeChar c
  have hfirst := firstChar?_append c bs
  cases hbytes : String.utf8EncodeChar c with
  | nil =>
    have hpos := c.utf8Size_pos
    rw [hbytes, List.length_nil] at hlength
    omega
  | cons x xs =>
    rw [hbytes, List.length_cons] at hlength
    rw [hbytes, List.cons_append] at hfirst
    have htail : c.utf8Size - 1 = xs.length := by omega
    rw [List.cons_append, lossyChars, hfirst]
    dsimp only
    rw [htail, lossyChars_length_append]

/-- The bytes of a text are taken for that text. -/
theorem lossy_byteList (s : String) : lossy s.toByteArray.data.toList = s := by
  have hchars : ∀ cs : List Char, lossyChars 0 (cs.flatMap String.utf8EncodeChar) = cs := by
    intro cs
    induction cs with
    | nil => rfl
    | cons c cs ih => rw [List.flatMap_cons, lossyChars_append, ih]
  rw [lossy, byteList_eq_flatMap, hchars, String.ofList_toList]

/-- A byte that begins no character, a broken character of two bytes, and three bytes that would be
a surrogate. -/
example : lossy [0x61, 0xFF, 0xE1, 0x80, 0x62, 0xED, 0xA0, 0x80] =
    "a\uFFFD\uFFFDb\uFFFD\uFFFD\uFFFD" := by
  decide

end Text

namespace RawPath

theorem text_ofText (path : String) : (ofText path).text = path :=
  Text.lossy_byteList path

/-- A path that is kept as a text leads back to it exactly if it is one. -/
theorem ofText_text_iff {path : RawPath} : ofText path.text = path ↔ ∃ s, path = ofText s := by
  constructor
  · intro h
    exact ⟨path.text, h.symm⟩
  · rintro ⟨s, rfl⟩
    rw [text_ofText]

end RawPath

end Quotation
