/-!
# Numbers as digits

Decimal and hexadecimal digits of natural numbers, on lists of characters. Writing in base ten is
`Nat.toDigits 10`, reading is `Nat.ofDigitChars 10`.

* `readNat?`: a non-empty run of ASCII digits as a number; `readNat?_toDigits` says that it reads
  what is written;
* `readBounded?`: the same with an optional plus sign and an upper bound;
* `zeroPadded`: a number filled up with zeros to a fixed width;
* `hexDigit`, `hexValue?`: the sixteen digits, lower case when written, either case when read.
-/

namespace Quotation.Text

/-- The number that a non-empty run of ASCII digits stands for. -/
def readNat? (cs : List Char) : Option Nat :=
  if cs ≠ [] ∧ cs.all Char.isDigit = true then some (Nat.ofDigitChars 10 cs 0) else none

theorem readNat?_toDigits (n : Nat) : readNat? (Nat.toDigits 10 n) = some n := by
  have hall : (Nat.toDigits 10 n).all Char.isDigit = true :=
    List.all_eq_true.mpr fun _ h => Nat.isDigit_of_mem_toDigits (by decide) (by decide) h
  simp [readNat?, hall, Nat.toDigits_ne_nil, Nat.ofDigitChars_toDigits]

/-- A number below `bound` in decimal digits, behind at most one plus sign. -/
def readBounded? (bound : Nat) (s : String) : Option Nat :=
  let digits := match s.toList with
    | '+' :: cs => cs
    | cs => cs
  (readNat? digits).filter (· < bound)

/-- A number in decimal digits, filled up with leading zeros to `width` characters. -/
def zeroPadded (width n : Nat) : List Char :=
  let digits := Nat.toDigits 10 n
  List.replicate (width - digits.length) '0' ++ digits

/-- The digit of a number below sixteen, in lower case. -/
def hexDigit (n : Nat) : Char :=
  Nat.digitChar n

/-- The value of a hexadecimal digit of either case. -/
def hexValue? (c : Char) : Option Nat :=
  if '0' ≤ c ∧ c ≤ '9' then some (c.toNat - '0'.toNat)
  else if 'a' ≤ c ∧ c ≤ 'f' then some (c.toNat - 'a'.toNat + 10)
  else if 'A' ≤ c ∧ c ≤ 'F' then some (c.toNat - 'A'.toNat + 10)
  else none

theorem hexValue?_hexDigit {n : Nat} (h : n < 16) : hexValue? (hexDigit n) = some n := by
  revert n
  decide

theorem hexValue?_lt {c : Char} {n : Nat} (h : hexValue? c = some n) : n < 16 := by
  have toNat_le {a b : Char} (h : a ≤ b) : a.toNat ≤ b.toNat := h
  unfold hexValue? at h
  split at h
  · rename_i hc
    have := toNat_le hc.2
    cases h
    have : '9'.toNat = 57 := rfl
    have : '0'.toNat = 48 := rfl
    omega
  · split at h
    · rename_i hc
      have := toNat_le hc.2
      cases h
      have : 'f'.toNat = 102 := rfl
      have : 'a'.toNat = 97 := rfl
      omega
    · split at h
      · rename_i hc
        have := toNat_le hc.2
        cases h
        have : 'F'.toNat = 70 := rfl
        have : 'A'.toNat = 65 := rfl
        omega
      · cases h

end Quotation.Text
