import Quotation.Instant.Text
import Quotation.Proofs.Instant.Calendar

/-!
# Instants are read back from the store

An instant of the years 0 to 9999 is read from the text that is kept of it, unless it falls in a
leap second in the middle of a minute: then the second behind that is read. The store keeps later
and earlier ones too, but with a sign that is not read, and that comes before all digits.

* `digits_zeroPadded`, `fraction_fractionText`: the parts;
* `Dated`, `Kept`, `read_stored`;
* `read_stored_of_not_dated`, `stored_lt_stored_of_not_dated`.
-/

namespace Quotation

namespace Text

theorem length_zeroPadded {width n : Nat} (h : (Nat.toDigits 10 n).length ≤ width) :
    (zeroPadded width n).length = width := by
  simp only [zeroPadded, List.length_append, List.length_replicate]
  omega

theorem isDigit_zeroPadded {width n : Nat} {c : Char} (hc : c ∈ zeroPadded width n) :
    c.isDigit = true := by
  rcases List.mem_append.mp hc with h | h
  · rw [(List.mem_replicate.mp h).2]
    decide
  · exact Nat.isDigit_of_mem_toDigits (by decide) (by decide) h

theorem ofDigitChars_zeroPadded (width n : Nat) :
    Nat.ofDigitChars 10 (zeroPadded width n) 0 = n := by
  simp only [zeroPadded, Nat.ofDigitChars_append, Nat.ofDigitChars_replicate_zero, Nat.mul_zero]
  exact Nat.ofDigitChars_toDigits (by decide) (by decide)

end Text

namespace Instant

/-- A number of the right width is read, whatever stands behind it. -/
theorem digits_zeroPadded {width n : Nat} (h : (Nat.toDigits 10 n).length ≤ width)
    (rest : List Char) :
    digits width width (Text.zeroPadded width n ++ rest) = some (n, rest) := by
  have hlen := Text.length_zeroPadded h
  have htake : ((Text.zeroPadded width n ++ rest).take width).takeWhile Char.isDigit =
      Text.zeroPadded width n := by
    rw [List.take_left' hlen, ← List.append_nil (Text.zeroPadded width n),
      List.takeWhile_append_of_pos fun c hc => Text.isDigit_zeroPadded (by simpa using hc)]
    simp
  simp only [digits, htake, hlen, Nat.le_refl, if_pos, Text.ofDigitChars_zeroPadded,
    List.drop_left' hlen]

/-- A fraction of at most nine digits is read up to the sign of the offset. -/
theorem fraction_zeroPadded {width k : Nat} (hpos : 0 < width) (hwidth : width ≤ 9)
    (h : (Nat.toDigits 10 k).length ≤ width) (rest : List Char) :
    fraction ('.' :: Text.zeroPadded width k ++ '+' :: rest) =
      some (Nat.ofDigitChars 10 (List.replicate (9 - width) '0') k, '+' :: rest) := by
  have hlen := Text.length_zeroPadded h
  have hne : Text.zeroPadded width k ≠ [] := by
    intro hnil
    rw [hnil] at hlen
    exact absurd hlen (Nat.ne_of_lt hpos)
  have hrun : (Text.zeroPadded width k ++ '+' :: rest).takeWhile Char.isDigit =
      Text.zeroPadded width k := by
    rw [List.takeWhile_append_of_pos fun c => Text.isDigit_zeroPadded,
      List.takeWhile_cons_of_neg (by decide), List.append_nil]
  have hkept : (Text.zeroPadded width k).take 9 = Text.zeroPadded width k :=
    List.take_of_length_le (by omega)
  simp only [fraction, List.cons_append, hrun, if_neg hne, hkept, hlen, Nat.ofDigitChars_append,
    Text.ofDigitChars_zeroPadded]
  rw [List.drop_left' hlen]

theorem fraction_fractionText {nano : Nat} (h : nano < 1000000000) (rest : List Char) :
    fraction (fractionText nano ++ '+' :: rest) = some (nano, '+' :: rest) := by
  unfold fractionText
  split
  · rename_i hzero
    rw [hzero]
    rfl
  split
  · rename_i hmod
    have hlt : nano / 1000000 < 1000 := by omega
    rw [fraction_zeroPadded (by decide) (by decide)
      ((Nat.length_toDigits_le_iff (by decide) (by decide)).mpr hlt),
      Nat.ofDigitChars_replicate_zero]
    simp only [Option.some.injEq, Prod.mk.injEq, and_true]
    omega
  split
  · rename_i hmod
    have hlt : nano / 1000 < 1000000 := by omega
    rw [fraction_zeroPadded (by decide) (by decide)
      ((Nat.length_toDigits_le_iff (by decide) (by decide)).mpr hlt),
      Nat.ofDigitChars_replicate_zero]
    simp only [Option.some.injEq, Prod.mk.injEq, and_true]
    omega
  · rw [fraction_zeroPadded (by decide) (by decide)
      ((Nat.length_toDigits_le_iff (by decide) (by decide)).mpr h),
      Nat.ofDigitChars_replicate_zero]
    simp

/-- The year of an instant has four digits and no sign. -/
def Dated (t : Instant) : Prop :=
  0 ≤ t.civil.date.year ∧ t.civil.date.year ≤ 9999

instance (t : Instant) : Decidable t.Dated :=
  inferInstanceAs (Decidable (_ ∧ _))

theorem Dated.yearOk {t : Instant} (h : t.Dated) : Civil.yearOk t.civil.date.year = true := by
  obtain ⟨hlow, hhigh⟩ := h
  apply decide_eq_true
  simp only [Civil.yearBounds]
  omega

/-- The offset of universal time is read to the end. -/
theorem offset_zero : offset (mark ':') "+00:00".toList = some (0, []) := by
  rfl

/-- Whether an instant is read as it is from the text that is kept of it. -/
def Kept (t : Instant) : Prop :=
  t.Dated ∧ t.Regular

instance (t : Instant) : Decidable t.Kept :=
  inferInstanceAs (Decidable (_ ∧ _))

/-- What is kept of an instant is kept of the one that it is taken for. -/
theorem stored_reread (t : Instant) : t.reread.stored = t.stored := by
  rw [stored, stored, t.civil_reread]

theorem Dated.kept_reread {t : Instant} (h : t.Dated) : t.reread.Kept := by
  refine ⟨?_, t.regular_reread⟩
  rwa [Dated, t.civil_reread]

/-- The text that is kept of an instant is read as the one that it is taken for. -/
theorem read_stored {t : Instant} (h : t.Dated) : read t.stored = some t.reread := by
  have hinstant := t.instant?_civil h.yearOk
  obtain ⟨hhour, hminute, hsecond, hnano⟩ := t.civil_bounds
  obtain ⟨hmonth, hday⟩ := Date.isValid_bounds (Date.isValid_ofDayNumber (t.second / 86400))
  obtain ⟨hlow, hhigh⟩ := h
  have htwo : ∀ {n : Nat}, n < 100 → ∀ rest,
      digits 2 2 (Text.zeroPadded 2 n ++ rest) = some (n, rest) := by
    intro n hn
    exact digits_zeroPadded ((Nat.length_toDigits_le_iff (by decide) (by decide)).mpr hn)
  have hfour : ∀ rest, digits 4 4 (Text.zeroPadded 4 t.civil.date.year.natAbs ++ rest) =
      some (t.civil.date.year.natAbs, rest) := by
    have hlt : t.civil.date.year.natAbs < 10000 := by omega
    exact digits_zeroPadded ((Nat.length_toDigits_le_iff (by decide) (by decide)).mpr hlt)
  have hyear : ((t.civil.date.year.natAbs : Nat) : Int) = t.civil.date.year := by omega
  -- each number is followed by a mark, so that it is read to its end and no further
  have hmonth' := htwo (n := t.civil.date.month) hmonth
  have hday' := htwo (n := t.civil.date.day) hday
  have hhour' := htwo (n := t.civil.hour) (by omega)
  have hminute' := htwo (n := t.civil.minute) (by omega)
  have hsecond' := htwo (n := t.civil.second) (by omega)
  have hfraction := fraction_fractionText hnano "00:00".toList
  have hoffset : "+00:00".toList = '+' :: "00:00".toList := by decide
  simp only [read, stored, civilText, yearText, if_pos (And.intro hlow hhigh),
    String.toList_ofList, List.append_assoc, List.cons_append, hfour, Option.bind_eq_bind,
    Option.bind_some, mark, if_true, hmonth', hday', hhour', hminute', hsecond', separator]
  rw [hoffset, hfraction, ← hoffset]
  simp only [Option.bind_some, offset_zero, if_true]
  rw [hyear]
  exact hinstant

theorem read_stored_of_kept {t : Instant} (h : t.Kept) : read t.stored = some t := by
  rw [read_stored h.1, reread_of_regular h.2]

/-- The text of an instant of another year begins with a sign. -/
theorem exists_stored_of_not_dated {t : Instant} (h : ¬t.Dated) :
    ∃ sign rest, t.stored.toList = sign :: rest ∧ (sign = '-' ∨ sign = '+') := by
  refine ⟨if t.civil.date.year < 0 then '-' else '+', ?_⟩
  have hyear : ¬(0 ≤ t.civil.date.year ∧ t.civil.date.year ≤ 9999) := h
  rw [stored, String.toList_ofList, civilText, yearText, if_neg hyear]
  refine ⟨_, rfl, ?_⟩
  split
  · exact .inl rfl
  · exact .inr rfl

/-- The text of an instant of the years 0 to 9999 begins with a digit. -/
theorem exists_stored_of_dated {t : Instant} (h : t.Dated) :
    ∃ digit rest, t.stored.toList = digit :: rest ∧ digit.isDigit = true := by
  have hyear : 0 ≤ t.civil.date.year ∧ t.civil.date.year ≤ 9999 := h
  rw [stored, String.toList_ofList, civilText, yearText, if_pos hyear]
  cases hdigits : Text.zeroPadded 4 t.civil.date.year.natAbs with
  | nil =>
    exact absurd (List.append_eq_nil_iff.mp hdigits).2 (Nat.toDigits_ne_nil)
  | cons digit rest =>
    have hmem : digit ∈ Text.zeroPadded 4 t.civil.date.year.natAbs := by
      rw [hdigits]
      exact List.mem_cons_self
    exact ⟨digit, _, rfl, Text.isDigit_zeroPadded hmem⟩

/-- A year with a sign is not read. -/
theorem read_stored_of_not_dated {t : Instant} (h : ¬t.Dated) : read t.stored = none := by
  obtain ⟨sign, rest, htext, hsign⟩ := exists_stored_of_not_dated h
  have hdigits : digits 4 4 (sign :: rest) = none := by
    rcases hsign with rfl | rfl <;> rfl
  rw [read, htext, hdigits]
  rfl

/-- An instant of another year comes before those of the years 0 to 9999, as texts. -/
theorem stored_lt_stored_of_not_dated {t u : Instant} (ht : ¬t.Dated) (hu : u.Dated) :
    t.stored < u.stored := by
  obtain ⟨sign, rest, htext, hsign⟩ := exists_stored_of_not_dated ht
  obtain ⟨digit, rest', hutext, hdigit⟩ := exists_stored_of_dated hu
  have hzero : '0' ≤ digit := by
    rw [Char.isDigit, Bool.and_eq_true, decide_eq_true_iff] at hdigit
    exact hdigit.1
  have hfirst : sign < digit := by
    rcases hsign with rfl | rfl
    · exact UInt32.lt_of_lt_of_le (by decide : '-' < '0') hzero
    · exact UInt32.lt_of_lt_of_le (by decide : '+' < '0') hzero
  show t.stored.toList < u.stored.toList
  rw [htext, hutext, List.cons_lt_cons_iff]
  exact .inl hfirst

end Instant

end Quotation
