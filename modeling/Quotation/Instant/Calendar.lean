/-!
# The calendar

Dates of the Gregorian calendar, continued backwards without a gap, and their numbers: day 0 is the
first of January 1970.

* `Date.dayNumber`: the number of a date;
* `Date.ofDayNumber`: the date of a number.
-/

namespace Quotation

/-- A date; months and days count from one. -/
structure Date where
  year : Int
  month : Nat
  day : Nat
  deriving DecidableEq, Repr

namespace Date

/-- Every fourth year is a leap year, except those that begin a century not divisible by four. -/
def isLeap (year : Int) : Bool :=
  year % 4 == 0 && (year % 100 != 0 || year % 400 == 0)

/-- The lengths of the months of a year. -/
def monthLengths (leap : Bool) : List Nat :=
  [31, if leap then 29 else 28, 31, 30, 31, 30, 31, 31, 30, 31, 30, 31]

/-- The number of days from the beginning of year 0 to that of another year. -/
def daysBeforeYear (year : Int) : Int :=
  365 * year + (year + 3) / 4 - (year + 99) / 100 + (year + 399) / 400

/-- The number of the first of January of year 0, counted backwards from that of 1970. -/
def epochDays : Int := daysBeforeYear 1970

/-- Whether month and day occur in the year. -/
def isValid (d : Date) : Bool :=
  1 ≤ d.month && d.month ≤ 12 && 1 ≤ d.day &&
    decide (d.day ≤ ((monthLengths (isLeap d.year))[d.month - 1]?.getD 0))

/-- The number of days in the first months of a row. -/
def daysOfMonths : List Nat → Nat → Nat
  | len :: rest, months + 1 => len + daysOfMonths rest months
  | _, _ => 0

/-- The number of a date. -/
def dayNumber (d : Date) : Int :=
  daysBeforeYear d.year - epochDays +
    (daysOfMonths (monthLengths (isLeap d.year)) (d.month - 1) + (d.day - 1) : Nat)

/-- The place of a day in a row of months: the months before it and the days before it in its own.
-/
def splitMonths : List Nat → Nat → Nat × Nat
  | [], k => (0, k)
  | len :: rest, k =>
    if k < len then (0, k)
    else
      let (months, days) := splitMonths rest (k - len)
      (months + 1, days)

/-- The year that holds a day, given by the number of days since the beginning of year 0: the mean
length of a year gives it up to one, the beginnings of the years decide. -/
def yearOf (days : Int) : Int :=
  let guess := days * 400 / 146097
  if days < daysBeforeYear guess then guess - 1
  else if daysBeforeYear (guess + 1) ≤ days then guess + 1
  else guess

/-- The date of a number. -/
def ofDayNumber (n : Int) : Date :=
  let days := n + epochDays
  let year := yearOf days
  let (months, rest) :=
    splitMonths (monthLengths (isLeap year)) (days - daysBeforeYear year).toNat
  ⟨year, months + 1, rest + 1⟩

/-- A year begins where the one before it ends. -/
theorem daysBeforeYear_succ (year : Int) :
    daysBeforeYear (year + 1) = daysBeforeYear year + (if isLeap year then 366 else 365) := by
  unfold daysBeforeYear isLeap
  by_cases h4 : year % 4 = 0 <;> by_cases h100 : year % 100 = 0 <;>
    by_cases h400 : year % 400 = 0 <;> simp [h4, h100, h400] <;> omega

/-- The year of a day holds it. -/
theorem yearOf_bounds (days : Int) :
    daysBeforeYear (yearOf days) ≤ days ∧ days < daysBeforeYear (yearOf days + 1) := by
  have hguess : ∃ g : Int, g = days * 400 / 146097 := ⟨_, rfl⟩
  obtain ⟨g, hg⟩ := hguess
  simp only [yearOf, ← hg]
  split
  · simp only [daysBeforeYear, Int.sub_add_cancel] at *
    omega
  · split <;> simp only [daysBeforeYear] at * <;> omega

end Date

end Quotation
