import Quotation.Content.Sticker
import Quotation.Proofs.Text.Hex

/-!
# References to stickers as text

A sticker is referred to by the texts of its pack and its number there, and two texts refer to a
sticker exactly if they are the digits of its pack in either case.

* `vector_mk_toArray_toList`, `size_toArray_toList`: a vector from the list of its elements;
* `IsHexDigits`: a text of a given number of digits;
* `StickerRef.ofHex_eq_ok_iff`: which sticker two texts refer to, with
  `StickerRef.ofHex_packIdHex_packKeyHex` and `StickerRef.packIdHex_inj`;
* `StickerRef.exists_ofHex_iff`: which texts refer to a sticker;
* `StickerRef.exists_ofHex_iff_hexDigits`.
-/

namespace Quotation

/-- A vector is made again of the list of its elements. -/
theorem vector_mk_toArray_toList {α : Type} {n : Nat} (v : Vector α n)
    (h : v.toList.toArray.size = n) : Vector.mk v.toList.toArray h = v := by
  rw [← Vector.toList_inj]
  rfl

theorem size_toArray_toList {α : Type} {n : Nat} (v : Vector α n) :
    v.toList.toArray.size = n := by
  rw [List.size_toArray, Vector.length_toList]

namespace Text

/-- Whether a text is made of a number of hexadecimal digits. -/
def IsHexDigits (n : Nat) (s : String) : Prop :=
  s.length = n ∧ ∀ c ∈ s.toList, IsHexDigit c

instance (n : Nat) : DecidablePred (IsHexDigits n) := fun s =>
  -- the letters of the text are looked at, not all that there are
  have : Decidable (∀ c ∈ s.toList, IsHexDigit c) := List.decidableBAll _ _
  inferInstanceAs (Decidable (s.length = n ∧ ∀ c ∈ s.toList, IsHexDigit c))

namespace Hex

theorem decode_eq_ok_iff_toLower {s : String} {bs : List UInt8} :
    decode s = .ok bs ↔ s.toLower = encode bs := by
  rw [decode_eq_ok_iff, ← String.toList_inj, toList_toLower]

/-- The texts that are read as byte strings of a given length. -/
theorem exists_decode_length_iff {n : Nat} {s : String} :
    (∃ bs, decode s = .ok bs ∧ bs.length = n) ↔ IsHexDigits (2 * n) s := by
  rw [IsHexDigits, ← String.length_toList]
  constructor
  · rintro ⟨bs, hbs, rfl⟩
    exact ⟨length_of_decode hbs, (exists_decode_iff.mp ⟨bs, hbs⟩).2⟩
  · rintro ⟨hlength, hdigits⟩
    obtain ⟨bs, hbs⟩ := exists_decode_iff.mpr ⟨by omega, hdigits⟩
    have hdouble := length_of_decode hbs
    exact ⟨bs, hbs, by omega⟩

end Hex

end Text

namespace StickerRef

variable {packId packKey : String} {number : UInt32} {s t : StickerRef}

theorem ofHex_of_decode (hid : Text.Hex.decode packId = .ok s.packId.toList)
    (hkey : Text.Hex.decode packKey = .ok s.packKey.toList) :
    ofHex packId packKey s.number = .ok s := by
  simp only [ofHex, hid, hkey, mapError_ok, ok_bind, dif_pos (size_toArray_toList s.packId),
    dif_pos (size_toArray_toList s.packKey), vector_mk_toArray_toList]
  rfl

/-- The reference of a sticker is read from the texts of its pack. -/
theorem ofHex_packIdHex_packKeyHex (s : StickerRef) :
    ofHex s.packIdHex s.packKeyHex s.number = .ok s :=
  ofHex_of_decode (Text.Hex.decode_encode _) (Text.Hex.decode_encode _)

theorem decode_of_ofHex (h : ofHex packId packKey number = .ok s) :
    Text.Hex.decode packId = .ok s.packId.toList ∧
      Text.Hex.decode packKey = .ok s.packKey.toList ∧ s.number = number := by
  obtain ⟨id, hid, hrest⟩ := bind_eq_ok_iff.mp h
  obtain ⟨key, hkey, hrest⟩ := bind_eq_ok_iff.mp hrest
  rw [mapError_eq_ok_iff] at hid hkey
  split at hrest
  · split at hrest
    · cases hrest
      exact ⟨hid, hkey, rfl⟩
    · cases hrest
  · cases hrest

/-- Two texts refer to a sticker if in lower case they are what its pack is written as. -/
theorem ofHex_eq_ok_iff : ofHex packId packKey number = .ok s ↔
    packId.toLower = s.packIdHex ∧ packKey.toLower = s.packKeyHex ∧ s.number = number := by
  constructor
  · intro h
    obtain ⟨hid, hkey, hnumber⟩ := decode_of_ofHex h
    exact ⟨Text.Hex.decode_eq_ok_iff_toLower.mp hid, Text.Hex.decode_eq_ok_iff_toLower.mp hkey,
      hnumber⟩
  · rintro ⟨hid, hkey, rfl⟩
    exact ofHex_of_decode (Text.Hex.decode_eq_ok_iff_toLower.mpr hid)
      (Text.Hex.decode_eq_ok_iff_toLower.mpr hkey)

theorem exists_ofHex_iff : (∃ s, ofHex packId packKey number = .ok s) ↔
    Text.IsHexDigits 32 packId ∧ Text.IsHexDigits 64 packKey := by
  rw [← Text.Hex.exists_decode_length_iff (n := 16), ← Text.Hex.exists_decode_length_iff (n := 32)]
  constructor
  · rintro ⟨s, h⟩
    obtain ⟨hid, hkey, -⟩ := decode_of_ofHex h
    exact ⟨⟨_, hid, Vector.length_toList⟩, ⟨_, hkey, Vector.length_toList⟩⟩
  · rintro ⟨⟨id, hid, hidLength⟩, ⟨key, hkey, hkeyLength⟩⟩
    let s : StickerRef := ⟨⟨id.toArray, hidLength⟩, ⟨key.toArray, hkeyLength⟩, number⟩
    exact ⟨s, ofHex_of_decode (s := s) hid hkey⟩

theorem packIdHex_inj : s.packIdHex = t.packIdHex ↔ s.packId = t.packId := by
  constructor
  · intro h
    have hbytes : Text.Hex.decode s.packIdHex = .ok s.packId.toList :=
      Text.Hex.decode_encode s.packId.toList
    rw [h, packIdHex, Text.Hex.decode_encode] at hbytes
    exact Vector.toList_inj.mp (Except.ok.inj hbytes).symm
  · intro h
    rw [packIdHex, packIdHex, h]

/-- Two texts and a number refer to a sticker exactly if the texts are thirty-two and sixty-four
digits in either case. Then they are the texts of its pack but for the case, and its written form is
that of the pack and the number. Every sticker is referred to by the texts of its own pack, and the
text of a pack is that of no other. -/
theorem exists_ofHex_iff_hexDigits :
    (∀ (packId packKey : String) (number : UInt32),
      ((∃ s, ofHex packId packKey number = .ok s) ↔
        Text.IsHexDigits 32 packId ∧ Text.IsHexDigits 64 packKey) ∧
      ∀ s, ofHex packId packKey number = .ok s →
        s.packIdHex = packId.toLower ∧ s.packKeyHex = packKey.toLower ∧ s.number = number ∧
          s.text = packId.toLower ++ ":" ++ toString number.toNat) ∧
    (∀ s : StickerRef, ofHex s.packIdHex s.packKeyHex s.number = .ok s) ∧
    ∀ s t : StickerRef, s.packIdHex = t.packIdHex ↔ s.packId = t.packId := by
  refine ⟨fun packId packKey number => ⟨exists_ofHex_iff, fun s h => ?_⟩,
    ofHex_packIdHex_packKeyHex, fun s t => packIdHex_inj⟩
  obtain ⟨hid, hkey, rfl⟩ := ofHex_eq_ok_iff.mp h
  refine ⟨hid.symm, hkey.symm, rfl, ?_⟩
  rw [text, hid]

/-- Digits of both cases; with a digit less, or with another letter in the place of one, they refer
to nothing. -/
theorem exists_ofHex_iff_hexDigits_mixed_case :
    let packId := "00112233445566778899aAbBcCdDeEfF"
    let packKey := "0123456789abcdef0123456789ABCDEF0123456789abcdef0123456789ABCDEF"
    (∃ s, ofHex packId packKey 7 = .ok s ∧ s.packIdHex = "00112233445566778899aabbccddeeff" ∧
      s.text = "00112233445566778899aabbccddeeff:7") ∧
    (∀ s, ofHex "00112233445566778899aAbBcCdDeEf" packKey 7 ≠ .ok s) ∧
    ∀ s, ofHex "00112233445566778899aAbBcCdDeEé" packKey 7 ≠ .ok s := by
  intro packId packKey
  have hlower : packId.toLower = "00112233445566778899aabbccddeeff" := by
    rw [← String.toList_inj, Text.toList_toLower]
    decide
  obtain ⟨hread, -⟩ := exists_ofHex_iff_hexDigits
  refine ⟨?_, fun s hs => ?_, fun s hs => ?_⟩
  · obtain ⟨s, hs⟩ := (hread packId packKey 7).1.mpr (by decide)
    obtain ⟨hid, -, -, htext⟩ := (hread packId packKey 7).2 s hs
    rw [hlower] at hid htext
    exact ⟨s, hs, hid, htext.trans (by decide)⟩
  · have hdigits := ((hread _ packKey 7).1.mp ⟨s, hs⟩).1
    revert hdigits
    decide
  · have hdigits := ((hread _ packKey 7).1.mp ⟨s, hs⟩).1
    revert hdigits
    decide

end StickerRef

end Quotation
