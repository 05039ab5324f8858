import Quotation.Text.Blank

/-!
# Characters of the lower half of a byte

Such a character is one byte of a text. The capitals are among them, and are the only characters
that have another lower case than themselves.

* `byteList_ofList`, `utf8ByteSize_ofList`: the bytes of a text of such characters;
* `toLower_cases`, `eq_of_toLower_eq`: which character is the lower case of which;
* `IsVisible`, `IsPlain`: those that are no blanks and no controls, and the capitals left out.
-/

namespace Quotation.Text

theorem byteList_eq_flatMap (s : String) :
    s.toByteArray.data.toList = s.toList.flatMap String.utf8EncodeChar := by
  have htext := String.toByteArray_ofList (l := s.toList)
  rw [String.ofList_toList] at htext
  rw [htext, List.utf8Encode, List.toList_data_toByteArray]

/-- A text of the lower half of a byte has a byte for each character. -/
theorem byteList_ofList {cs : List Char} (h : ∀ c ∈ cs, c.toNat < 128) :
    (String.ofList cs).toByteArray.data.toList = cs.map fun c => UInt8.ofNat c.toNat := by
  rw [String.toByteArray_ofList]
  induction cs with
  | nil => simp
  | cons c cs ih =>
    have hc : c.val.toNat ≤ 0x7f := Nat.le_of_lt_succ (h c (by simp))
    have hbyte : [c].utf8Encode.data.toList = [UInt8.ofNat c.toNat] := by
      rw [List.utf8Encode_singleton, List.toList_data_toByteArray, String.utf8EncodeChar, if_pos hc]
      rfl
    rw [List.utf8Encode_cons, ByteArray.data_append, Array.toList_append, hbyte,
      ih fun d hd => h d (by simp [hd])]
    rfl

theorem utf8ByteSize_ofList {cs : List Char} (h : ∀ c ∈ cs, c.toNat < 128) :
    (String.ofList cs).utf8ByteSize = cs.length := by
  have hbytes := congrArg List.length (byteList_ofList h)
  rwa [List.length_map] at hbytes

theorem toList_toLower (s : String) : s.toLower.toList = s.toList.map Char.toLower :=
  String.toList_map

theorem toLower_of_le {c : Char} (h : 128 ≤ c.toNat) : c.toLower = c := by
  unfold Char.toLower
  refine dif_neg fun hc => ?_
  have hle : c.toNat ≤ 'Z'.toNat := hc.2
  have hz : 'Z'.toNat = 90 := rfl
  omega

/-- A character is its own lower case, or a capital, whose lower case is 32 places behind it. -/
theorem toLower_cases (c : Char) : c.toLower = c ∨
    (65 ≤ c.toNat ∧ c.toNat ≤ 90 ∧ c.toLower.toNat = c.toNat + 32) := by
  by_cases hc : c.toNat < 128
  · have hall : ∀ k < 128, (Char.ofNat k).toLower = Char.ofNat k ∨
        (65 ≤ k ∧ k ≤ 90 ∧ (Char.ofNat k).toLower.toNat = k + 32) := by
      decide +kernel
    have h := hall c.toNat hc
    rwa [Char.ofNat_toNat] at h
  · exact .inl (toLower_of_le (Nat.le_of_not_lt hc))

/-- What is no letter is the lower case of itself only. -/
theorem eq_of_toLower_eq {c d : Char} (h : c.toLower = d) (hd : d.toNat < 97 ∨ 122 < d.toNat) :
    c = d := by
  rcases toLower_cases c with hsame | ⟨hlow, hhigh, hlower⟩
  · rw [← hsame, h]
  · rw [h] at hlower
    omega

/-- Whether a character of the lower half of a byte is visible. -/
def IsVisible (c : Char) : Prop :=
  33 ≤ c.toNat ∧ c.toNat < 127

instance : DecidablePred IsVisible :=
  fun _ => inferInstanceAs (Decidable (_ ∧ _))

theorem isBlank_of_isVisible {c : Char} (h : IsVisible c) : isBlank c = false := by
  obtain ⟨hlow, hhigh⟩ := h
  simp only [isBlank, Bool.or_eq_false_iff, Bool.and_eq_false_iff, decide_eq_false_iff_not,
    beq_eq_false_iff_ne]
  omega

/-- A capital is as visible as its lower case. -/
theorem isVisible_of_toLower {c : Char} (h : IsVisible c.toLower) : IsVisible c := by
  rcases toLower_cases c with hsame | ⟨hlow, hhigh, -⟩
  · rwa [hsame] at h
  · exact ⟨by omega, by omega⟩

/-- Whether a character is visible and no capital. -/
def IsPlain (c : Char) : Prop :=
  IsVisible c ∧ c.toLower = c

instance : DecidablePred IsPlain :=
  fun _ => inferInstanceAs (Decidable (_ ∧ _))

end Quotation.Text
