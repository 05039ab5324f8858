import Quotation.Instant.Basic

/-!
# Dates and instants are determined by their parts

A leap second in the middle of a minute is shown as the second behind it; any other instant is the
only one of its date and time of day.

* `Date.dayNumber_ofDayNumber`, `Date.isValid_ofDayNumber`: a number is that of a date that occurs;
* `Instant.Regular`, `Instant.reread`: the instants that are told apart from all others, and the one
  that any instant is taken for;
* `Instant.instant?_civil`: an instant from its date and time of day.
-/

namespace Quotation

namespace Date

/-- The place of a day in a row of months, none of which ends before it. -/
theorem splitMonths_spec {lens : List Nat} {k : Nat} (h : k < daysOfMonths lens lens.length) :
    ∃ len, lens[(splitMonths lens k).1]? = some len ∧ (splitMonths lens k).2 < len ∧
      daysOfMonths lens (splitMonths lens k).1 + (splitMonths lens k).2 = k := by
  induction lens generalizing k with
  | nil => cases h
  | cons len lens ih =>
    rw [List.length_cons, daysOfMonths] at h
    by_cases hk : k < len
    · exact ⟨len, by simp [splitMonths, hk, daysOfMonths]⟩
    · obtain ⟨len', hlen, hday, hsum⟩ := ih (k := k - len) (by omega)
      refine ⟨len', ?_, ?_, ?_⟩
      · simpa [splitMonths, hk] using hlen
      · simpa [splitMonths, hk] using hday
      · simp only [splitMonths, if_neg hk, daysOfMonths]
        omega

/-- The months of a year make up the year. -/
theorem daysOfMonths_monthLengths (leap : Bool) :
    daysOfMonths (monthLengths leap) (monthLengths leap).length = if leap then 366 else 365 := by
  cases leap <;> rfl

/-- The months of a year are twelve. -/
theorem length_monthLengths (leap : Bool) : (monthLengths leap).length = 12 := by
  cases leap <;> rfl

/-- The place of a day in its year. -/
theorem ofDayNumber_spec (n : Int) : ∃ len,
    (monthLengths (isLeap (ofDayNumber n).year))[(ofDayNumber n).month - 1]? = some len ∧
      1 ≤ (ofDayNumber n).month ∧ 1 ≤ (ofDayNumber n).day ∧ (ofDayNumber n).day ≤ len ∧
      daysBeforeYear (ofDayNumber n).year - epochDays +
        (daysOfMonths (monthLengths (isLeap (ofDayNumber n).year)) ((ofDayNumber n).month - 1) +
          ((ofDayNumber n).day - 1) : Nat) = n := by
  have hbounds := yearOf_bounds (n + epochDays)
  have hnext := daysBeforeYear_succ (yearOf (n + epochDays))
  have hlt : (n + epochDays - daysBeforeYear (yearOf (n + epochDays))).toNat <
      daysOfMonths (monthLengths (isLeap (yearOf (n + epochDays))))
        (monthLengths (isLeap (yearOf (n + epochDays)))).length := by
    rw [daysOfMonths_monthLengths]
    split
    · rename_i h
      rw [if_pos h] at hnext
      omega
    · rename_i h
      rw [if_neg h] at hnext
      omega
  obtain ⟨len, hlen, hday, hsum⟩ := splitMonths_spec hlt
  refine ⟨len, hlen, Nat.le_add_left _ _, Nat.le_add_left _ _, hday, ?_⟩
  simp only [ofDayNumber, Nat.add_sub_cancel]
  omega

/-- Months and days have two digits. -/
theorem isValid_bounds {d : Date} (h : d.isValid = true) : d.month < 100 ∧ d.day < 100 := by
  have hlens : ∀ len ∈ monthLengths (isLeap d.year), len ≤ 31 := by
    cases isLeap d.year <;> decide
  simp only [isValid, Bool.and_eq_true, decide_eq_true_eq] at h
  obtain ⟨⟨⟨-, hmonth⟩, -⟩, hday⟩ := h
  refine ⟨by omega, ?_⟩
  cases hlen : (monthLengths (isLeap d.year))[d.month - 1]? with
  | none =>
    rw [hlen, Option.getD_none] at hday
    omega
  | some len =>
    have hle := hlens len (List.mem_of_getElem? hlen)
    rw [hlen, Option.getD_some] at hday
    omega

/-- A number is that of its date. -/
theorem dayNumber_ofDayNumber (n : Int) : (ofDayNumber n).dayNumber = n := by
  obtain ⟨len, -, -, -, -, h⟩ := ofDayNumber_spec n
  exact h

/-- The date of a number occurs in the calendar. -/
theorem isValid_ofDayNumber (n : Int) : (ofDayNumber n).isValid = true := by
  obtain ⟨len, hlen, hmonth, hday, hle, -⟩ := ofDayNumber_spec n
  have hlt : (ofDayNumber n).month - 1 < (monthLengths (isLeap (ofDayNumber n).year)).length :=
    (List.getElem?_eq_some_iff.mp hlen).1
  rw [length_monthLengths] at hlt
  simp only [isValid, hlen, Option.getD_some, Bool.and_eq_true, decide_eq_true_eq]
  omega

end Date

namespace Instant

/-- Whether the leap second that an instant may fall in ends a minute. -/
def Regular (t : Instant) : Prop :=
  1000000000 ≤ t.nano → t.second % 60 = 59

instance (t : Instant) : Decidable t.Regular :=
  inferInstanceAs (Decidable (_ → _))

/-- The instant that the date and the time of day of an instant are taken for. -/
def reread (t : Instant) : Instant :=
  if t.Regular then t
  else ⟨t.second + 1, t.nano - 1000000000, Nat.lt_of_le_of_lt (Nat.sub_le _ _) t.nano_lt⟩

theorem reread_of_regular {t : Instant} (h : t.Regular) : t.reread = t :=
  if_pos h

theorem reread_eq_self_iff {t : Instant} : t.reread = t ↔ t.Regular := by
  refine ⟨fun h => Decidable.byContradiction fun hnot => ?_, reread_of_regular⟩
  rw [reread, if_neg hnot] at h
  have hsecond : t.second + 1 = t.second := congrArg second h
  omega

/-- An instant is shown as the one that it is taken for. -/
theorem civil_reread (t : Instant) : t.reread.civil = t.civil := by
  by_cases h : t.Regular
  · rw [reread_of_regular h]
  · obtain ⟨hleap, hmiddle⟩ : 1000000000 ≤ t.nano ∧ t.second % 60 ≠ 59 := by
      simpa only [Regular, Classical.not_imp] using h
    have hlt := t.nano_lt
    have hday : (t.second + 1) / 86400 = t.second / 86400 := by omega
    simp only [reread, if_neg h, civil, hday, Civil.mk.injEq, true_and]
    omega

theorem regular_reread (t : Instant) : t.reread.Regular := by
  by_cases h : t.Regular
  · rwa [reread_of_regular h]
  · intro hleap
    have hlt := t.nano_lt
    simp only [reread, if_neg h] at hleap
    omega

/-- The time of day of an instant is one. -/
theorem civil_bounds (t : Instant) :
    t.civil.hour < 24 ∧ t.civil.minute < 60 ∧ t.civil.second ≤ 60 ∧ t.civil.nano < 1000000000 := by
  have hnano := t.nano_lt
  simp only [civil]
  omega

/-- A regular instant is the one at which clocks show its date and time. -/
theorem instant?_civil_of_regular {t : Instant} (hregular : t.Regular)
    (hyear : Civil.yearOk t.civil.date.year = true) : t.civil.instant? 0 = some t := by
  obtain ⟨hhour, hminute, hsecond, hnano⟩ := t.civil_bounds
  have hdate : t.civil.date = Date.ofDayNumber (t.second / 86400) := rfl
  have hvalid : t.civil.isValid = true := by
    have hdate' := Date.isValid_ofDayNumber (t.second / 86400)
    rw [← hdate] at hdate'
    simp [Civil.isValid, hdate', hyear, hhour, hminute, hsecond, hnano]
  have hday : t.civil.date.dayNumber = t.second / 86400 := by
    rw [hdate, Date.dayNumber_ofDayNumber]
  have hminutes : t.civil.date.dayNumber * 1440 + t.civil.hour * 60 + t.civil.minute - 0 =
      t.second / 60 := by
    rw [hday]
    simp only [civil]
    omega
  have hwithin : Civil.yearOk (Date.ofDayNumber (t.second / 60 / 1440)).year = true := by
    have hsame : t.second / 60 / 1440 = t.second / 86400 := by omega
    rw [hsame, ← hdate]
    exact hyear
  -- the second 60 is shown in leap seconds only, and those end a minute
  have hparts : (t.civil.second = 60 ↔ 1000000000 ≤ t.nano) ∧
      t.second / 60 * 60 + t.second % 60 = t.second := by
    have hlt := t.nano_lt
    unfold Regular at hregular
    simp only [civil]
    omega
  obtain ⟨second, nano, nano_lt⟩ := t
  simp only [Civil.instant?, dif_pos hvalid, hminutes, hwithin, Bool.not_true, Bool.false_eq_true,
    if_false]
  split
  · rename_i h
    simp only [civil, Option.some.injEq, mk.injEq] at h hparts ⊢
    omega
  · rename_i h
    simp only [civil, Option.some.injEq, mk.injEq] at h hparts ⊢
    omega

/-- Clocks that show the date and time of an instant show those of the one it is taken for. -/
theorem instant?_civil (t : Instant) (hyear : Civil.yearOk t.civil.date.year = true) :
    t.civil.instant? 0 = some t.reread := by
  rw [← civil_reread] at hyear ⊢
  exact instant?_civil_of_regular t.regular_reread hyear

end Instant

end Quotation
