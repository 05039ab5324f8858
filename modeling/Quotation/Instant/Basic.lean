import Quotation.Instant.Calendar

/-!
# Instants

A point of time in coordinated universal time, to the nanosecond. In a leap second the nanoseconds
of the second before it go on beyond a thousand million; that is the last second of a minute as a
rule, but may be any.

* `Instant`, ordered by `Instant.before`;
* `Civil`: the same as date and time of day, with `Instant.civil` and `Civil.instant?`.
-/

namespace Quotation

/-- A point of time: whole seconds since the beginning of 1970, and nanoseconds, which reach into a
leap second behind the second. -/
structure Instant where
  second : Int
  nano : Nat
  nano_lt : nano < 2000000000
  deriving DecidableEq, Repr

/-- A date and a time of day. In a leap second `second` is 60. -/
structure Civil where
  date : Date
  hour : Nat
  minute : Nat
  second : Nat
  nano : Nat
  deriving DecidableEq, Repr

namespace Instant

/-- The instant a number of milliseconds after the beginning of 1970. -/
def ofMillisecond (n : UInt64) : Instant where
  second := (n.toNat / 1000 : Nat)
  nano := n.toNat % 1000 * 1000000
  nano_lt := by omega

/-- Whether one instant comes before another. -/
def before (a b : Instant) : Prop :=
  a.second < b.second ∨ (a.second = b.second ∧ a.nano < b.nano)

instance (a b : Instant) : Decidable (a.before b) :=
  inferInstanceAs (Decidable (_ ∨ _))

/-- The date and time of day of an instant. -/
def civil (t : Instant) : Civil :=
  let day := t.second / 86400
  let rest := (t.second % 86400).toNat
  ⟨.ofDayNumber day, rest / 3600, rest / 60 % 60, rest % 60 + t.nano / 1000000000,
    t.nano % 1000000000⟩

end Instant

namespace Civil

/-- The first and the last year that an instant may fall in. -/
def yearBounds : Int × Int := (-262143, 262142)

/-- Whether a year is within the bounds. -/
def yearOk (year : Int) : Bool :=
  decide (yearBounds.1 ≤ year ∧ year ≤ yearBounds.2)

/-- Whether the parts are those of a date and a time of day. -/
def isValid (c : Civil) : Bool :=
  c.date.isValid && yearOk c.date.year && decide (c.hour < 24) && decide (c.minute < 60) &&
    decide (c.second ≤ 60) && decide (c.nano < 1000000000)

/-- The instant at which clocks `offset` minutes ahead of universal time show the date and time. -/
def instant? (c : Civil) (offset : Int) : Option Instant :=
  if h : c.isValid = true then
    let minutes := c.date.dayNumber * 1440 + c.hour * 60 + c.minute - offset
    let within := yearOk (Date.ofDayNumber (minutes / 1440)).year
    have hs : c.second ≤ 60 ∧ c.nano < 1000000000 := by
      simp only [isValid, Bool.and_eq_true, decide_eq_true_eq] at h
      omega
    if !within then none
    else if c.second = 60 then
      some ⟨minutes * 60 + 59, 1000000000 + c.nano, by omega⟩
    else some ⟨minutes * 60 + c.second, c.nano, by omega⟩
  else none

end Civil

end Quotation
