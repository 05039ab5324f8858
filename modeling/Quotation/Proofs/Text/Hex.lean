import Quotation.Proofs.Except
import Quotation.Proofs.Text.Ascii
import Quotation.Text.Hex

/-!
# What a hexadecimal text is

A text is read as a byte string exactly if it is made of pairs of hexadecimal digits, and then in
lower case it is the text that the byte string is written as.

* `isPlain_hexDigit`, `Hex.isPlain_of_mem_digits`: what is written is visible and in lower case;
* `Hex.decode_encode`: a byte string is read from its digits;
* `IsHexText`: pairs of digits, in either case;
* `Hex.decode_eq_ok_iff`: which byte string a text is read as, `Hex.length_of_decode`: its length;
* `Hex.exists_decode_iff`: which texts are read.
-/

namespace Quotation.Text

/-- A digit that is written is no capital. -/
theorem isPlain_hexDigit {n : Nat} (h : n < 16) : IsPlain (hexDigit n) := by
  revert n
  decide

/-- Whether a character is a hexadecimal digit, in either case. -/
def IsHexDigit (c : Char) : Prop :=
  ('0' ≤ c ∧ c ≤ '9') ∨ ('a' ≤ c ∧ c ≤ 'f') ∨ ('A' ≤ c ∧ c ≤ 'F')

instance : DecidablePred IsHexDigit :=
  fun _ => inferInstanceAs (Decidable (_ ∨ _ ∨ _))

/-- Whether a text is made of pairs of hexadecimal digits. -/
def IsHexText (s : String) : Prop :=
  s.toList.length % 2 = 0 ∧ ∀ c ∈ s.toList, IsHexDigit c

instance : DecidablePred IsHexText :=
  fun _ => inferInstanceAs (Decidable (_ ∧ _))

theorem isSome_hexValue?_iff {c : Char} : (hexValue? c).isSome = true ↔ IsHexDigit c := by
  unfold hexValue? IsHexDigit
  split
  · simp [*]
  · split
    · simp [*]
    · split <;> simp [*]

/-- Of the characters of the lower half of a byte, those with a value are the digits in either
case. -/
theorem hexValue?_ofNat : ∀ k < 128, ∀ n < 16,
    hexValue? (Char.ofNat k) = some n ↔ (Char.ofNat k).toLower = hexDigit n := by
  decide +kernel

theorem hexValue?_eq_some_iff {c : Char} {n : Nat} :
    hexValue? c = some n ↔ n < 16 ∧ c.toLower = hexDigit n := by
  by_cases hc : c.toNat < 128
  · constructor
    · intro h
      have hn := hexValue?_lt h
      have hiff := hexValue?_ofNat c.toNat hc n hn
      rw [Char.ofNat_toNat] at hiff
      exact ⟨hn, hiff.mp h⟩
    · rintro ⟨hn, h⟩
      have hiff := hexValue?_ofNat c.toNat hc n hn
      rw [Char.ofNat_toNat] at hiff
      exact hiff.mpr h
  · -- such a character has no value, and is its own lower case
    have hc : 128 ≤ c.toNat := Nat.le_of_not_lt hc
    constructor
    · intro h
      have hdigit : IsHexDigit c := by
        rw [← isSome_hexValue?_iff, h]
        rfl
      have hsmall : c.toNat ≤ 102 := by
        rcases hdigit with ⟨-, h⟩ | ⟨-, h⟩ | ⟨-, h⟩
        · exact Nat.le_trans h (by decide)
        · exact h
        · exact Nat.le_trans h (by decide)
      omega
    · rintro ⟨hn, h⟩
      rw [toLower_of_le hc] at h
      obtain ⟨⟨-, hlt⟩, -⟩ := isPlain_hexDigit hn
      rw [← h] at hlt
      omega

namespace Hex

theorem isPlain_of_mem_digits {bs : List UInt8} {c : Char} (hc : c ∈ bs.flatMap digits) :
    IsPlain c := by
  obtain ⟨b, -, hb⟩ := List.mem_flatMap.mp hc
  have hlt := b.toNat_lt
  simp only [digits, List.mem_cons, List.not_mem_nil, or_false] at hb
  rcases hb with rfl | rfl
  · exact isPlain_hexDigit (by omega)
  · exact isPlain_hexDigit (by omega)

theorem toNat_lt_of_mem_digits {bs : List UInt8} {c : Char} (hc : c ∈ bs.flatMap digits) :
    c.toNat < 128 := by
  obtain ⟨⟨-, hlt⟩, -⟩ := isPlain_of_mem_digits hc
  omega

/-- A text of the lower half of a byte is read byte by byte as its characters. -/
theorem byteChars_ofList {cs : List Char} (h : ∀ c ∈ cs, c.toNat < 128) :
    byteChars (String.ofList cs) = cs := by
  have hsame : ∀ c ∈ cs, (Char.ofUInt8 ∘ fun c : Char => UInt8.ofNat c.toNat) c = id c := by
    intro c hc
    have hlt : c.toNat < UInt8.size := Nat.lt_trans (h c hc) (by decide)
    apply Char.toNat_inj.mp
    change (UInt8.ofNat c.toNat).toNat = c.toNat
    exact UInt8.toNat_ofNat_of_lt' hlt
  rw [byteChars, byteList_ofList h, List.map_map, List.map_congr_left hsame, List.map_id]

theorem decode_encode (bs : List UInt8) : decode (encode bs) = .ok bs := by
  rw [decode, encode, byteChars_ofList fun c => toNat_lt_of_mem_digits,
    decodeDigits_flatMap_digits]

theorem ofNat_eq_iff {h l : Nat} (hh : h < 16) (hl : l < 16) (b : UInt8) :
    UInt8.ofNat (16 * h + l) = b ↔ h = b.toNat / 16 ∧ l = b.toNat % 16 := by
  rw [← UInt8.toNat_inj, UInt8.toNat_ofNat_of_lt' (by simp only [UInt8.size]; omega)]
  omega

/-- Two digits in front are those of a byte if they have the values of its halves. -/
theorem map_toLower_eq_iff (hi lo : Char) (rest : List Char) (b : UInt8) (bs : List UInt8) :
    (hi :: lo :: rest).map Char.toLower = (b :: bs).flatMap digits ↔
      hexValue? hi = some (b.toNat / 16) ∧ hexValue? lo = some (b.toNat % 16) ∧
        rest.map Char.toLower = bs.flatMap digits := by
  have hb := b.toNat_lt
  have hhi : b.toNat / 16 < 16 := by omega
  have hlo : b.toNat % 16 < 16 := by omega
  simp [digits, hexValue?_eq_some_iff, hhi, hlo]

/-- Digits are read as the byte string that is written as they are in lower case. -/
theorem decodeFrom_eq_ok_iff (position : Nat) (cs : List Char) (bs : List UInt8) :
    decodeFrom position cs = .ok bs ↔ cs.map Char.toLower = bs.flatMap digits := by
  induction position, cs using decodeFrom.induct generalizing bs with
  | case1 position => cases bs <;> simp [decodeFrom, digits]
  | case2 position c => cases bs <;> simp [decodeFrom, digits]
  | case3 position hi lo rest hhi =>
    cases bs with
    | nil => simp [decodeFrom, hhi]
    | cons b bs =>
      rw [map_toLower_eq_iff]
      simp [decodeFrom, hhi]
  | case4 position hi lo rest h hlo hhi =>
    cases bs with
    | nil => simp [decodeFrom, hhi, hlo]
    | cons b bs =>
      rw [map_toLower_eq_iff]
      simp [decodeFrom, hhi, hlo]
  | case5 position hi lo rest h l hlo hhi ih =>
    cases bs with
    | nil => simp [decodeFrom, hhi, hlo, map_eq_ok_iff]
    | cons b bs =>
      rw [map_toLower_eq_iff, ← ih]
      simp only [decodeFrom, hhi, hlo, map_eq_ok_iff, List.cons.injEq, Option.some.injEq,
        ofNat_eq_iff (hexValue?_lt hhi) (hexValue?_lt hlo)]
      constructor
      · rintro ⟨bs, hrest, ⟨hh, hl⟩, rfl⟩
        exact ⟨hh, hl, hrest⟩
      · rintro ⟨hh, hl, hrest⟩
        exact ⟨bs, hrest, ⟨hh, hl⟩, rfl⟩

theorem decodeDigits_eq_ok_iff (cs : List Char) (bs : List UInt8) :
    decodeDigits cs = .ok bs ↔ cs.map Char.toLower = bs.flatMap digits := by
  rw [decodeDigits]
  split
  · rename_i hodd
    constructor
    · intro h
      cases h
    · intro h
      -- what is written has an even length
      have hlength := congrArg List.length h
      rw [List.length_map, length_flatMap_digits] at hlength
      omega
  · exact decodeFrom_eq_ok_iff 0 cs bs

/-- A character of the upper half of a byte or beyond has a byte of the upper half. -/
theorem exists_high_byte {c : Char} (hc : 128 ≤ c.toNat) :
    ∃ b ∈ String.utf8EncodeChar c, 128 ≤ b.toNat := by
  have hlast : 128 ≤ (UInt8.ofNat (c.toNat % 64 + 128)).toNat := by
    rw [UInt8.toNat_ofNat_of_lt' (by simp only [UInt8.size]; omega)]
    omega
  have hlarge : ¬c.toNat ≤ 127 := by omega
  refine ⟨_, ?_, hlast⟩
  show UInt8.ofNat (c.toNat % 64 + 128) ∈
    if c.toNat ≤ 127 then _ else if c.toNat ≤ 2047 then _ else if c.toNat ≤ 65535 then _ else _
  rw [if_neg hlarge]
  split
  · simp
  · split <;> simp

theorem toNat_lt_of_byteChars {s : String} (h : ∀ c ∈ byteChars s, c.toNat < 128) :
    ∀ c ∈ s.toList, c.toNat < 128 := by
  intro c hc
  by_contra hlarge
  obtain ⟨b, hb, hhigh⟩ := exists_high_byte (Nat.le_of_not_lt hlarge)
  have hmem : Char.ofUInt8 b ∈ byteChars s := by
    rw [byteChars, byteList_eq_flatMap]
    exact List.mem_map_of_mem (List.mem_flatMap.mpr ⟨c, hc, hb⟩)
  have hlow : b.toNat < 128 := h _ hmem
  omega

/-- A text is read as the byte string that is written as it is in lower case. -/
theorem decode_eq_ok_iff {s : String} {bs : List UInt8} :
    decode s = .ok bs ↔ s.toList.map Char.toLower = (encode bs).toList := by
  have hsmall : ∀ cs : List Char, cs.map Char.toLower = bs.flatMap digits →
      ∀ c ∈ cs, c.toNat < 128 := by
    intro cs h c hc
    by_contra hlarge
    have hmem : c.toLower ∈ bs.flatMap digits := h ▸ List.mem_map_of_mem hc
    rw [toLower_of_le (Nat.le_of_not_lt hlarge)] at hmem
    exact hlarge (toNat_lt_of_mem_digits hmem)
  have hsame : (∀ c ∈ s.toList, c.toNat < 128) → byteChars s = s.toList := by
    intro h
    have hchars := byteChars_ofList h
    rwa [String.ofList_toList] at hchars
  rw [decode, encode, String.toList_ofList, decodeDigits_eq_ok_iff]
  constructor
  · intro h
    rwa [← hsame (toNat_lt_of_byteChars (hsmall _ h))]
  · intro h
    rwa [hsame (hsmall _ h)]

theorem length_of_decode {s : String} {bs : List UInt8} (h : decode s = .ok bs) :
    s.toList.length = 2 * bs.length := by
  rw [decode_eq_ok_iff, encode, String.toList_ofList] at h
  have hlength := congrArg List.length h
  rwa [List.length_map, length_flatMap_digits] at hlength

/-- Pairs of digits are read. -/
theorem exists_decodeFrom (position : Nat) {cs : List Char} (heven : cs.length % 2 = 0)
    (hdigits : ∀ c ∈ cs, IsHexDigit c) : ∃ bs, decodeFrom position cs = .ok bs := by
  induction position, cs using decodeFrom.induct with
  | case1 position => exact ⟨[], rfl⟩
  | case2 position c => simp at heven
  | case3 position hi lo rest hhi =>
    have hdigit := isSome_hexValue?_iff.mpr (hdigits hi List.mem_cons_self)
    simp [hhi] at hdigit
  | case4 position hi lo rest h hlo hhi =>
    have hdigit := isSome_hexValue?_iff.mpr
      (hdigits lo (List.mem_cons_of_mem _ List.mem_cons_self))
    simp [hlo] at hdigit
  | case5 position hi lo rest h l hlo hhi ih =>
    have hrest : rest.length % 2 = 0 := by
      simp only [List.length_cons] at heven
      omega
    obtain ⟨bs, hbs⟩ := ih hrest fun c hc =>
      hdigits c (List.mem_cons_of_mem _ (List.mem_cons_of_mem _ hc))
    exact ⟨UInt8.ofNat (16 * h + l) :: bs, by simp [decodeFrom, hhi, hlo, hbs, Except.map]⟩

/-- The texts that are read as byte strings. -/
theorem exists_decode_iff {s : String} : (∃ bs, decode s = .ok bs) ↔ IsHexText s := by
  constructor
  · rintro ⟨bs, h⟩
    constructor
    · have hlength := length_of_decode h
      omega
    · intro c hc
      rw [decode_eq_ok_iff, encode, String.toList_ofList] at h
      have hmem : c.toLower ∈ bs.flatMap digits := h ▸ List.mem_map_of_mem hc
      obtain ⟨b, -, hb⟩ := List.mem_flatMap.mp hmem
      have hlt := b.toNat_lt
      have hvalue : ∃ n, hexValue? c = some n := by
        simp only [digits, List.mem_cons, List.not_mem_nil, or_false] at hb
        rcases hb with hb | hb
        · exact ⟨_, hexValue?_eq_some_iff.mpr ⟨by omega, hb⟩⟩
        · exact ⟨_, hexValue?_eq_some_iff.mpr ⟨by omega, hb⟩⟩
      exact isSome_hexValue?_iff.mp (Option.isSome_iff_exists.mpr hvalue)
  · rintro ⟨heven, hdigits⟩
    obtain ⟨bs, hbs⟩ := exists_decodeFrom 0 heven hdigits
    refine ⟨bs, decode_eq_ok_iff.mpr ?_⟩
    rw [encode, String.toList_ofList]
    exact (decodeFrom_eq_ok_iff 0 _ bs).mp hbs

end Hex

end Quotation.Text
