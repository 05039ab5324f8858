import Mathlib.Algebra.Group.Nat.Defs
import Mathlib.Data.List.Basic
import Mathlib.Order.Basic
import Quotation.Proofs.Instant.Stored
import Quotation.Proofs.Uuid

/-!
# Instants are stored in their order

Of the instants that are read back from the store, the earlier one is stored as the text that comes
first, although these texts differ in length: a fraction has no, three, six or nine digits, and
where it ends the sign of the offset stands, which comes before the point and before all digits. An
instant in a leap second in the middle of a minute may be stored as a text that comes too late.

* `Text.append_lt_append`: rows of digits of one length are ordered as the numbers they stand for;
* `Text.unfilled_lt_unfilled`: so are fractions of any length in front of the sign;
* `Date.ofDayNumber_lt`: dates are ordered as their numbers, by the first part that differs;
* `Civil.before`, `Instant.before.civil`: so are dates and times of day;
* `Instant.FractionDigits`: the digits in which a fraction is written;
* `Instant.stored_lt_stored_iff`, `Instant.bytes_lt_bytes_iff`: the texts and their bytes.
-/

namespace Quotation

namespace Text

/-! ### Digits -/

theorem toNat_lt_toNat_iff {c d : Char} : c.toNat < d.toNat ↔ c < d := by
  rw [Char.lt_def, UInt32.lt_iff_toNat_lt]
  rfl

theorem isDigit_bounds {c : Char} (h : c.isDigit = true) : 48 ≤ c.toNat ∧ c.toNat ≤ 57 := by
  rw [Char.isDigit, Bool.and_eq_true, decide_eq_true_iff, decide_eq_true_iff] at h
  exact ⟨h.1, h.2⟩

/-- What is read of some digits behind a number lies between the number and the next one. -/
theorem ofDigitChars_bounds {ds : List Char} (h : ∀ c ∈ ds, c.isDigit = true) (i : Nat) :
    i * 10 ^ ds.length ≤ Nat.ofDigitChars 10 ds i ∧
      Nat.ofDigitChars 10 ds i < (i + 1) * 10 ^ ds.length := by
  induction ds generalizing i with
  | nil => simp [Nat.ofDigitChars]
  | cons d ds ih =>
    obtain ⟨hlow, hhigh⟩ := isDigit_bounds (h d List.mem_cons_self)
    have hzero : '0'.toNat = 48 := by rfl
    obtain ⟨hleft, hright⟩ :=
      ih (fun c hc => h c (List.mem_cons_of_mem d hc)) (10 * i + (d.toNat - '0'.toNat))
    rw [Nat.ofDigitChars_cons, List.length_cons, Nat.pow_succ']
    constructor
    · calc
        i * (10 * 10 ^ ds.length) = 10 * i * 10 ^ ds.length := by
          rw [Nat.mul_comm 10 i, Nat.mul_assoc]
        _ ≤ (10 * i + (d.toNat - '0'.toNat)) * 10 ^ ds.length :=
          Nat.mul_le_mul_right _ (Nat.le_add_right _ _)
        _ ≤ _ := hleft
    · calc
        _ < (10 * i + (d.toNat - '0'.toNat) + 1) * 10 ^ ds.length := hright
        _ ≤ 10 * (i + 1) * 10 ^ ds.length := Nat.mul_le_mul_right _ (by omega)
        _ = (i + 1) * (10 * 10 ^ ds.length) := by
          rw [Nat.mul_comm 10, Nat.mul_assoc]

theorem ofDigitChars_lt_ofDigitChars {ds es : List Char} (hds : ∀ c ∈ ds, c.isDigit = true)
    (hes : ∀ c ∈ es, c.isDigit = true) (hlen : ds.length = es.length) {i j : Nat} (h : i < j) :
    Nat.ofDigitChars 10 ds i < Nat.ofDigitChars 10 es j :=
  calc Nat.ofDigitChars 10 ds i < (i + 1) * 10 ^ ds.length := (ofDigitChars_bounds hds i).2
    _ ≤ j * 10 ^ ds.length := Nat.mul_le_mul_right _ h
    _ = j * 10 ^ es.length := by rw [hlen]
    _ ≤ Nat.ofDigitChars 10 es j := (ofDigitChars_bounds hes j).1

/-- Of two rows of digits of one length, that of the smaller number comes first, whatever stands
behind them. -/
theorem append_lt_append {ds es : List Char} (hds : ∀ c ∈ ds, c.isDigit = true)
    (hes : ∀ c ∈ es, c.isDigit = true) (hlen : ds.length = es.length) {i : Nat}
    (h : Nat.ofDigitChars 10 ds i < Nat.ofDigitChars 10 es i) (x y : List Char) :
    ds ++ x < es ++ y := by
  induction ds generalizing es i with
  | nil =>
    obtain rfl : es = [] := List.length_eq_zero_iff.mp hlen.symm
    exact absurd h (Nat.lt_irrefl _)
  | cons d ds ih =>
    cases es with
    | nil => cases hlen
    | cons e es =>
      rw [List.cons_append, List.cons_append, List.cons_lt_cons_iff]
      have hlen' : ds.length = es.length := Nat.succ.inj hlen
      have hds' := fun c hc => hds c (List.mem_cons_of_mem d hc)
      have hes' := fun c hc => hes c (List.mem_cons_of_mem e hc)
      rw [Nat.ofDigitChars_cons, Nat.ofDigitChars_cons] at h
      rcases Nat.lt_trichotomy d.toNat e.toNat with hlt | heq | hgt
      · exact .inl (toNat_lt_toNat_iff.mp hlt)
      · obtain rfl := Char.toNat_inj.mp heq
        exact .inr ⟨rfl, ih hds' hes' hlen' h⟩
      · -- a greater digit makes a greater number
        have hvalue : e.toNat - '0'.toNat < d.toNat - '0'.toNat := by
          have hdigit := isDigit_bounds (hes e List.mem_cons_self)
          have hzero : '0'.toNat = 48 := by rfl
          omega
        have hback := ofDigitChars_lt_ofDigitChars hes' hds' hlen'.symm
          (Nat.add_lt_add_left hvalue (10 * i))
        exact absurd h (Nat.lt_asymm hback)

theorem length_zeroPadded_of_lt {width n : Nat} (hwidth : 0 < width) (hn : n < 10 ^ width) :
    (zeroPadded width n).length = width :=
  length_zeroPadded ((Nat.length_toDigits_le_iff (by decide) hwidth).mpr hn)

/-- Numbers that fit a width are ordered, and equal ones as what stands behind them. -/
theorem zeroPadded_append_lt (width : Nat) {m n : Nat} (hm : m < 10 ^ width) (hn : n < 10 ^ width)
    (hwidth : 0 < width) {x y : List Char} (h : m < n ∨ (m = n ∧ x < y)) :
    zeroPadded width m ++ x < zeroPadded width n ++ y := by
  rcases h with hlt | ⟨rfl, hrest⟩
  · have hlen := (length_zeroPadded_of_lt hwidth hm).trans (length_zeroPadded_of_lt hwidth hn).symm
    refine append_lt_append (i := 0) (fun c => isDigit_zeroPadded) (fun c => isDigit_zeroPadded)
      hlen ?_ x y
    rwa [ofDigitChars_zeroPadded, ofDigitChars_zeroPadded]
  · exact List.append_left_lt hrest

/-! ### Fractions -/

theorem isDigit_filled {ds : List Char} (hds : ∀ c ∈ ds, c.isDigit = true) (k : Nat) :
    ∀ c ∈ ds ++ List.replicate k '0', c.isDigit = true := by
  intro c hc
  rcases List.mem_append.mp hc with hc | hc
  · exact hds c hc
  · rw [(List.mem_replicate.mp hc).2]
    decide

/-- No row of digits comes before the zeros of its length. -/
theorem not_lt_zeros {ds : List Char} (hds : ∀ c ∈ ds, c.isDigit = true) :
    ¬ds < List.replicate ds.length '0' := by
  induction ds with
  | nil => exact List.lt_irrefl []
  | cons d ds ih =>
    have hdigit := isDigit_bounds (hds d List.mem_cons_self)
    have hzero : '0'.toNat = 48 := by rfl
    rw [List.length_cons, List.replicate_succ, List.cons_lt_cons_iff, not_or, not_and,
      ← toNat_lt_toNat_iff]
    exact ⟨by omega, fun _ => ih fun c hc => hds c (List.mem_cons_of_mem d hc)⟩

/-- Two fractions that are ordered when they are filled up with zeros to one length are ordered
without them, if each ends in a plus sign. -/
theorem unfilled_lt_unfilled {ds es : List Char} (hds : ∀ c ∈ ds, c.isDigit = true)
    (hes : ∀ c ∈ es, c.isDigit = true) {a b : Nat} (hlen : ds.length + a = es.length + b)
    (h : ds ++ List.replicate a '0' < es ++ List.replicate b '0') (x y : List Char) :
    ds ++ '+' :: x < es ++ '+' :: y := by
  induction ds generalizing es a b with
  | nil =>
    cases es with
    | nil =>
      obtain rfl : a = b := by simpa using hlen
      exact absurd h (List.lt_irrefl _)
    | cons e es =>
      have hplus : '+' < e := by
        have hdigit := isDigit_bounds (hes e List.mem_cons_self)
        have hvalue : '+'.toNat = 43 := by rfl
        exact toNat_lt_toNat_iff.mp (by omega)
      exact List.cons_lt_cons_iff.mpr (.inl hplus)
  | cons d ds ih =>
    have hds' := fun c hc => hds c (List.mem_cons_of_mem d hc)
    cases es with
    | nil =>
      have hzeros := not_lt_zeros (isDigit_filled hds a)
      rw [List.length_append, List.length_replicate, hlen, List.length_nil, Nat.zero_add] at hzeros
      exact absurd h hzeros
    | cons e es =>
      have hes' := fun c hc => hes c (List.mem_cons_of_mem e hc)
      rw [List.cons_append, List.cons_append, List.cons_lt_cons_iff] at h ⊢
      refine h.imp_right fun hrest => ⟨hrest.1, ?_⟩
      refine ih hds' hes' ?_ hrest.2
      simp only [List.length_cons] at hlen
      omega

/-! ### Bytes -/

/-- The bytes of two texts of the lower half of a byte are in the order of their characters. -/
theorem byteList_lt_byteList_iff {cs ds : List Char} (hcs : ∀ c ∈ cs, c.toNat < 128)
    (hds : ∀ c ∈ ds, c.toNat < 128) :
    (String.ofList cs).toByteArray.data.toList < (String.ofList ds).toByteArray.data.toList ↔
      cs < ds := by
  rw [byteList_ofList hcs, byteList_ofList hds]
  induction cs generalizing ds with
  | nil =>
    cases ds with
    | nil => exact iff_of_false (List.lt_irrefl _) (List.lt_irrefl _)
    | cons d ds => exact iff_of_true (List.nil_lt_cons _ _) (List.nil_lt_cons _ _)
  | cons c cs ih =>
    cases ds with
    | nil => exact iff_of_false (List.not_lt_nil _) (List.not_lt_nil _)
    | cons d ds =>
      have hc : c.toNat < 256 := Nat.lt_trans (hcs c List.mem_cons_self) (by decide)
      have hd : d.toNat < 256 := Nat.lt_trans (hds d List.mem_cons_self) (by decide)
      have hrest := ih (fun x hx => hcs x (List.mem_cons_of_mem c hx))
        fun x hx => hds x (List.mem_cons_of_mem d hx)
      rw [List.map_cons, List.map_cons, List.cons_lt_cons_iff, List.cons_lt_cons_iff, hrest,
        UInt8.lt_iff_toNat_lt, ← UInt8.toNat_inj, UInt8.toNat_ofNat_of_lt' hc,
        UInt8.toNat_ofNat_of_lt' hd, toNat_lt_toNat_iff, Char.toNat_inj]

end Text

namespace Date

/-! ### Dates -/

theorem splitMonths_lt (lens : List Nat) {k l : Nat} (h : k < l) :
    (splitMonths lens k).1 < (splitMonths lens l).1 ∨
      ((splitMonths lens k).1 = (splitMonths lens l).1 ∧
        (splitMonths lens k).2 < (splitMonths lens l).2) := by
  induction lens generalizing k l with
  | nil => exact .inr ⟨rfl, h⟩
  | cons len lens ih =>
    by_cases hl : l < len
    · have hk : k < len := by omega
      simp only [splitMonths, if_pos hk, if_pos hl]
      exact .inr ⟨trivial, h⟩
    · by_cases hk : k < len
      · simp only [splitMonths, if_pos hk, if_neg hl]
        exact .inl (Nat.succ_pos _)
      · have hrest := ih (k := k - len) (l := l - len) (by omega)
        simp only [splitMonths, if_neg hk, if_neg hl]
        omega

theorem daysBeforeYear_mono {y z : Int} (h : y ≤ z) : daysBeforeYear y ≤ daysBeforeYear z := by
  unfold daysBeforeYear
  omega

theorem yearOf_mono {m n : Int} (h : m ≤ n) : yearOf m ≤ yearOf n := by
  refine Int.not_lt.mp fun hlt => ?_
  have hbegin := daysBeforeYear_mono (Int.add_one_le_of_lt hlt)
  have hm := (yearOf_bounds m).1
  have hn := (yearOf_bounds n).2
  omega

/-- Of two days, the first part in which their dates differ is smaller in that of the earlier. -/
theorem ofDayNumber_lt {m n : Int} (h : m < n) :
    (ofDayNumber m).year < (ofDayNumber n).year ∨
    ((ofDayNumber m).year = (ofDayNumber n).year ∧
      ((ofDayNumber m).month < (ofDayNumber n).month ∨
      ((ofDayNumber m).month = (ofDayNumber n).month ∧
        (ofDayNumber m).day < (ofDayNumber n).day))) := by
  have hyear : yearOf (m + epochDays) ≤ yearOf (n + epochDays) := yearOf_mono (by omega)
  rcases Int.lt_or_eq_of_le hyear with hlt | heq
  · exact .inl hlt
  · have hbegin := (yearOf_bounds (m + epochDays)).1
    have hplace : (m + epochDays - daysBeforeYear (yearOf (m + epochDays))).toNat <
        (n + epochDays - daysBeforeYear (yearOf (m + epochDays))).toNat := by omega
    have hmonths := splitMonths_lt (monthLengths (isLeap (yearOf (m + epochDays)))) hplace
    refine .inr ⟨heq, ?_⟩
    simp only [ofDayNumber, ← heq]
    omega

end Date

/-- Whether a date and time of day come before others: the first part that differs decides. -/
def Civil.before (c d : Civil) : Prop :=
  c.date.year < d.date.year ∨ (c.date.year = d.date.year ∧
    (c.date.month < d.date.month ∨ (c.date.month = d.date.month ∧
      (c.date.day < d.date.day ∨ (c.date.day = d.date.day ∧
        (c.hour < d.hour ∨ (c.hour = d.hour ∧
          (c.minute < d.minute ∨ (c.minute = d.minute ∧
            (c.second < d.second ∨ (c.second = d.second ∧ c.nano < d.nano)))))))))))

namespace Instant

/-- Leap seconds at the end of minutes included, an instant comes before another on the clocks too.
-/
theorem before.civil {t u : Instant} (ht : t.Regular) (h : t.before u) :
    t.civil.before u.civil := by
  have htime : t.second / 86400 < u.second / 86400 ∨ (t.second / 86400 = u.second / 86400 ∧
      (t.civil.hour < u.civil.hour ∨ (t.civil.hour = u.civil.hour ∧
        (t.civil.minute < u.civil.minute ∨ (t.civil.minute = u.civil.minute ∧
          (t.civil.second < u.civil.second ∨ (t.civil.second = u.civil.second ∧
            t.civil.nano < u.civil.nano))))))) := by
    have hnano := t.nano_lt
    have hnano' := u.nano_lt
    unfold before at h
    unfold Regular at ht
    simp only [Instant.civil]
    omega
  rcases htime with hday | ⟨hday, htime⟩
  · rcases Date.ofDayNumber_lt hday with hyear | ⟨hyear, hmonth | ⟨hmonth, hday⟩⟩
    · exact .inl hyear
    · exact .inr ⟨hyear, .inl hmonth⟩
    · exact .inr ⟨hyear, .inr ⟨hmonth, .inl hday⟩⟩
  · have hdate : t.civil.date = u.civil.date := congrArg Date.ofDayNumber hday
    exact .inr ⟨congrArg _ hdate, .inr ⟨congrArg _ hdate, .inr ⟨congrArg _ hdate, htime⟩⟩⟩

/-! ### Texts -/

/-- The digits in which a fraction is written: none, three, six or nine, which filled up to nine are
those of the nanoseconds. -/
structure FractionDigits (nano : Nat) (ds : List Char) (zeros : Nat) : Prop where
  length_mem : ds.length ∈ [0, 3, 6, 9]
  length_add : ds.length + zeros = 9
  isDigit : ∀ c ∈ ds, c.isDigit = true
  value : Nat.ofDigitChars 10 (ds ++ List.replicate zeros '0') 0 = nano
  text : fractionText nano = if ds = [] then [] else '.' :: ds

theorem FractionDigits.zeroPadded {nano : Nat} (width n : Nat) (hwidth : width ∈ [3, 6, 9])
    (hfits : n < 10 ^ width) (hvalue : n * 10 ^ (9 - width) = nano)
    (htext : fractionText nano = '.' :: Text.zeroPadded width n) :
    FractionDigits nano (Text.zeroPadded width n) (9 - width) := by
  have hpos : 0 < width ∧ width ≤ 9 := by
    simp only [List.mem_cons, List.not_mem_nil, or_false] at hwidth
    omega
  have hlen := Text.length_zeroPadded_of_lt hpos.1 hfits
  refine ⟨?_, by omega, fun c => Text.isDigit_zeroPadded, ?_, ?_⟩
  · rw [hlen]
    exact List.mem_cons_of_mem 0 hwidth
  · rw [Nat.ofDigitChars_append, Text.ofDigitChars_zeroPadded, Nat.ofDigitChars_replicate_zero,
      Nat.mul_comm]
    exact hvalue
  · rw [htext, if_neg (List.ne_nil_of_length_pos (by omega))]

theorem exists_fractionDigits {nano : Nat} (h : nano < 1000000000) :
    ∃ ds zeros, FractionDigits nano ds zeros := by
  by_cases hzero : nano = 0
  · rw [hzero]
    exact ⟨[], 9, by decide, rfl, List.forall_mem_nil _, rfl, rfl⟩
  by_cases hmilli : nano % 1000000 = 0
  · refine ⟨_, _, .zeroPadded 3 (nano / 1000000) (by decide) ?_ ?_ ?_⟩
    · omega
    · omega
    · rw [fractionText, if_neg hzero, if_pos hmilli]
  by_cases hmicro : nano % 1000 = 0
  · refine ⟨_, _, .zeroPadded 6 (nano / 1000) (by decide) ?_ ?_ ?_⟩
    · omega
    · omega
    · rw [fractionText, if_neg hzero, if_neg hmilli, if_pos hmicro]
  · refine ⟨_, _, .zeroPadded 9 nano (by decide) h (by omega) ?_⟩
    rw [fractionText, if_neg hzero, if_neg hmilli, if_neg hmicro]

theorem fractionText_append_lt {a b : Nat} (hb : b < 1000000000) (h : a < b) (x y : List Char) :
    fractionText a ++ '+' :: x < fractionText b ++ '+' :: y := by
  obtain ⟨ds, k, hds⟩ := exists_fractionDigits (Nat.lt_trans h hb)
  obtain ⟨es, l, hes⟩ := exists_fractionDigits hb
  have hes_ne : es ≠ [] := by
    rintro rfl
    have hvalue := hes.value
    rw [List.nil_append, Nat.ofDigitChars_replicate_zero, Nat.mul_zero] at hvalue
    omega
  rw [hds.text, hes.text, if_neg hes_ne]
  split
  · -- the sign comes before the point
    exact List.cons_lt_cons_iff.mpr (.inl (by decide))
  · refine List.cons_lt_cons_iff.mpr (.inr ⟨rfl, Text.unfilled_lt_unfilled hds.isDigit
      hes.isDigit (hds.length_add.trans hes.length_add.symm) ?_ x y⟩)
    have hlen : (ds ++ List.replicate k '0').length = (es ++ List.replicate l '0').length := by
      rw [List.length_append, List.length_append, List.length_replicate, List.length_replicate,
        hds.length_add, hes.length_add]
    have hvalue : Nat.ofDigitChars 10 (ds ++ List.replicate k '0') 0 <
        Nat.ofDigitChars 10 (es ++ List.replicate l '0') 0 := by
      rw [hds.value, hes.value]
      exact h
    have hlt := Text.append_lt_append (Text.isDigit_filled hds.isDigit k)
      (Text.isDigit_filled hes.isDigit l) hlen hvalue [] []
    rwa [List.append_nil, List.append_nil] at hlt

/-- The parts of a date and time of day that are written in two digits have no more. -/
theorem civil_lt_hundred (t : Instant) : t.civil.date.month < 100 ∧ t.civil.date.day < 100 ∧
    t.civil.hour < 100 ∧ t.civil.minute < 100 ∧ t.civil.second < 100 := by
  obtain ⟨hhour, hminute, hsecond, -⟩ := t.civil_bounds
  obtain ⟨hmonth, hday⟩ := Date.isValid_bounds (Date.isValid_ofDayNumber (t.second / 86400))
  exact ⟨hmonth, hday, by omega, by omega, by omega⟩

theorem stored_lt_stored {t u : Instant} (ht : t.Kept) (hu : u.Dated) (h : t.before u) :
    t.stored < u.stored := by
  have hcivil := h.civil ht.2
  obtain ⟨hmonth, hday, hhour, hminute, hsecond⟩ := t.civil_lt_hundred
  obtain ⟨hmonth', hday', hhour', hminute', hsecond'⟩ := u.civil_lt_hundred
  have hyear : 0 ≤ t.civil.date.year ∧ t.civil.date.year ≤ 9999 := ht.1
  have hyear' : 0 ≤ u.civil.date.year ∧ u.civil.date.year ≤ 9999 := hu
  -- a mark and a number of two digits: what stands behind counts if the numbers are the same
  have htwo : ∀ {c : Char} {m n : Nat} {x y : List Char}, m < 100 → n < 100 →
      m < n ∨ (m = n ∧ x < y) →
      c :: (Text.zeroPadded 2 m ++ x) < c :: (Text.zeroPadded 2 n ++ y) := by
    intro c m n x y hm hn hlt
    exact List.cons_lt_cons_iff.mpr
      (.inr ⟨rfl, Text.zeroPadded_append_lt 2 hm hn (by decide) hlt⟩)
  have hplus : "+00:00".toList = '+' :: "00:00".toList := by decide
  rw [String.lt_iff]
  simp only [stored, civilText, yearText, if_pos hyear, if_pos hyear', String.toList_ofList, hplus,
    List.append_assoc, List.cons_append]
  refine Text.zeroPadded_append_lt 4 (by omega) (by omega) (by decide)
    (hcivil.imp (fun _ => by omega) (And.imp (fun _ => by omega) fun hrest => ?_))
  refine htwo hmonth hmonth' (hrest.imp_right (And.imp_right fun hrest => ?_))
  refine htwo hday hday' (hrest.imp_right (And.imp_right fun hrest => ?_))
  refine htwo hhour hhour' (hrest.imp_right (And.imp_right fun hrest => ?_))
  refine htwo hminute hminute' (hrest.imp_right (And.imp_right fun hrest => ?_))
  refine htwo hsecond hsecond' (hrest.imp_right (And.imp_right fun hrest => ?_))
  exact fractionText_append_lt u.civil_bounds.2.2.2 hrest _ _

theorem before_trichotomy (t u : Instant) : t.before u ∨ t = u ∨ u.before t := by
  obtain ⟨second, nano, _⟩ := t
  obtain ⟨second', nano', _⟩ := u
  simp only [before, mk.injEq]
  omega

/-- Instants that are read back are in the order of the texts that are kept of them. -/
theorem stored_lt_stored_iff {t u : Instant} (ht : t.Kept) (hu : u.Kept) :
    t.stored < u.stored ↔ t.before u := by
  refine ⟨fun h => ?_, stored_lt_stored ht hu.1⟩
  rcases t.before_trichotomy u with hbefore | rfl | hafter
  · exact hbefore
  · exact absurd h (String.lt_irrefl _)
  · exact absurd h (String.lt_asymm (stored_lt_stored hu ht.1 hafter))

/-- What is kept of an instant are digits and marks. -/
theorem toNat_lt_of_mem_stored {t : Instant} {c : Char} (hc : c ∈ t.stored.toList) :
    c.toNat < 128 := by
  have hdigits : ∀ ds : List Char, (∀ d ∈ ds, d.isDigit = true) → ∀ d ∈ ds, d.toNat < 128 := by
    intro ds hds d hd
    have hbounds := Text.isDigit_bounds (hds d hd)
    omega
  have hpadded := fun width n => hdigits (Text.zeroPadded width n) fun d => Text.isDigit_zeroPadded
  obtain ⟨ds, k, hds⟩ := exists_fractionDigits t.civil_bounds.2.2.2
  have hyear : ∀ d ∈ yearText t.civil.date.year, d.toNat < 128 := by
    unfold yearText
    split
    · exact hpadded _ _
    · refine List.forall_mem_cons.mpr ⟨?_, hpadded _ _⟩
      split <;> decide
  have hfraction' : ∀ d ∈ fractionText t.civil.nano, d.toNat < 128 := by
    rw [hds.text]
    split
    · exact List.forall_mem_nil _
    · exact List.forall_mem_cons.mpr ⟨by decide, hdigits ds hds.isDigit⟩
  revert c
  simp only [stored, civilText, String.toList_ofList, List.forall_mem_append, List.forall_mem_cons]
  exact ⟨⟨⟨⟨⟨⟨⟨hyear, by decide, hpadded _ _⟩, by decide, hpadded _ _⟩, by decide, hpadded _ _⟩,
    by decide, hpadded _ _⟩, by decide, hpadded _ _⟩, hfraction'⟩, by simp⟩

/-- They are in the order of the bytes of these texts. -/
theorem bytes_lt_bytes_iff {t u : Instant} (ht : t.Kept) (hu : u.Kept) :
    t.stored.toByteArray.data.toList < u.stored.toByteArray.data.toList ↔ t.before u := by
  have hbytes := Text.byteList_lt_byteList_iff
    (fun c (hc : c ∈ t.stored.toList) => toNat_lt_of_mem_stored hc)
    fun c (hc : c ∈ u.stored.toList) => toNat_lt_of_mem_stored hc
  rw [String.ofList_toList, String.ofList_toList, ← String.lt_iff] at hbytes
  exact hbytes.trans (stored_lt_stored_iff ht hu)

theorem stored_inj {t u : Instant} (ht : t.Kept) (hu : u.Kept) : t.stored = u.stored ↔ t = u := by
  refine ⟨fun h => ?_, congrArg stored⟩
  have hread := read_stored_of_kept ht
  rw [h, read_stored_of_kept hu] at hread
  exact (Option.some.inj hread).symm

/-! ### Instants that are taken for others -/

section Reread

variable {t u : Instant} (ht : t.Dated) (hu : u.Dated)

include ht hu

theorem stored_lt_stored_iff_reread : t.stored < u.stored ↔ t.reread.before u.reread := by
  rw [← t.stored_reread, ← u.stored_reread, stored_lt_stored_iff ht.kept_reread hu.kept_reread]

theorem bytes_lt_bytes_iff_reread :
    t.stored.toByteArray.data.toList < u.stored.toByteArray.data.toList ↔
      t.reread.before u.reread := by
  rw [← t.stored_reread, ← u.stored_reread, bytes_lt_bytes_iff ht.kept_reread hu.kept_reread]

theorem stored_inj_reread : t.stored = u.stored ↔ t.reread = u.reread := by
  rw [← t.stored_reread, ← u.stored_reread, stored_inj ht.kept_reread hu.kept_reread]

end Reread

/-- In front of the fraction stand date and time in nineteen characters, behind it the offset. -/
theorem exists_stored_eq {t : Instant} (ht : t.Dated) :
    ∃ front ds, front.length = 19 ∧ ds.length ∈ [0, 3, 6, 9] ∧ (∀ c ∈ ds, c.isDigit = true) ∧
      t.stored.toList = front ++ (if ds = [] then [] else '.' :: ds) ++ "+00:00".toList := by
  obtain ⟨hmonth, hday, hhour, hminute, hsecond⟩ := t.civil_lt_hundred
  obtain ⟨ds, k, hds⟩ := exists_fractionDigits t.civil_bounds.2.2.2
  have hyear : 0 ≤ t.civil.date.year ∧ t.civil.date.year ≤ 9999 := ht
  have htwo : ∀ {n : Nat}, n < 100 → (Text.zeroPadded 2 n).length = 2 := fun hn =>
    Text.length_zeroPadded_of_lt (by decide) hn
  have hfour : (Text.zeroPadded 4 t.civil.date.year.natAbs).length = 4 :=
    Text.length_zeroPadded_of_lt (by decide) (by omega)
  rw [stored, String.toList_ofList, civilText, hds.text]
  refine ⟨_, ds, ?_, hds.length_mem, hds.isDigit, rfl⟩
  rw [yearText, if_pos hyear]
  simp only [List.length_append, List.length_cons, hfour, htwo hmonth, htwo hday,
    htwo hhour, htwo hminute, htwo hsecond]

end Instant

end Quotation
