import Quotation.Instant.Basic
import Quotation.Text.Blank
import Quotation.Text.Digits

/-!
# Instants as text

The form of RFC 3339: date, `T`, time with a fraction of no, three, six or nine digits, offset. An
instant is always written in universal time. A year outside 0 to 9999 has a sign.

* `Instant.stored`: with the offset `+00:00`; `Instant.shown`: with `Z`;
* `Instant.read`: exactly the form, with any offset;
* `Instant.readLoosely`: with blanks around the parts, short numbers and signed years.
-/

namespace Quotation.Instant

/-- A year in four digits, or with a sign and at least four. -/
def yearText (year : Int) : List Char :=
  let digits := Text.zeroPadded 4 year.natAbs
  if 0 ≤ year ∧ year ≤ 9999 then digits else (if year < 0 then '-' else '+') :: digits

/-- The fraction of a second behind its point, by thousands as far as needed. -/
def fractionText (nano : Nat) : List Char :=
  if nano = 0 then []
  else if nano % 1000000 = 0 then '.' :: Text.zeroPadded 3 (nano / 1000000)
  else if nano % 1000 = 0 then '.' :: Text.zeroPadded 6 (nano / 1000)
  else '.' :: Text.zeroPadded 9 nano

/-- Date and time without an offset. -/
def civilText (c : Civil) : List Char :=
  yearText c.date.year ++ '-' :: Text.zeroPadded 2 c.date.month ++
    '-' :: Text.zeroPadded 2 c.date.day ++ 'T' :: Text.zeroPadded 2 c.hour ++
    ':' :: Text.zeroPadded 2 c.minute ++ ':' :: Text.zeroPadded 2 c.second ++
    fractionText c.nano

/-- The form that is kept in the store. -/
def stored (t : Instant) : String :=
  String.ofList (civilText t.civil ++ "+00:00".toList)

/-- The form that is shown. -/
def shown (t : Instant) : String :=
  String.ofList (civilText t.civil ++ ['Z'])

/-- Reads a number of at least `least` and at most `most` digits. -/
def digits (least most : Nat) (cs : List Char) : Option (Nat × List Char) :=
  let ds := (cs.take most).takeWhile Char.isDigit
  if least ≤ ds.length then some (Nat.ofDigitChars 10 ds 0, cs.drop ds.length) else none

/-- Passes over one given character. -/
def mark (c : Char) : List Char → Option (List Char)
  | d :: rest => if d = c then some rest else none
  | [] => none

/-- Passes over the character between date and time. -/
def separator : List Char → Option (List Char)
  | 'T' :: rest => some rest
  | 't' :: rest => some rest
  | ' ' :: rest => some rest
  | _ => none

/-- Reads a fraction, if one is there, as nanoseconds; digits behind the ninth are passed over. -/
def fraction : List Char → Option (Nat × List Char)
  | '.' :: rest =>
    let ds := rest.takeWhile Char.isDigit
    if ds = [] then none
    else
      let kept := ds.take 9
      let filled := kept ++ List.replicate (9 - kept.length) '0'
      some (Nat.ofDigitChars 10 filled 0, rest.drop ds.length)
  | cs => some (0, cs)

/-- Reads a sign; the second minus is the mathematical one. -/
def sign : List Char → Option (Int × List Char)
  | '+' :: rest => some (1, rest)
  | '-' :: rest => some (-1, rest)
  | '\u2212' :: rest => some (-1, rest)
  | _ => none

/-- Reads an offset in minutes: the letter for none, or sign, hours and minutes with what `gap`
passes over in between. It stays below a day. -/
def offset (gap : List Char → Option (List Char)) (cs : List Char) : Option (Int × List Char) :=
  match cs with
  | 'Z' :: rest => some (0, rest)
  | 'z' :: rest => some (0, rest)
  | cs => do
    let (s, rest) ← sign cs
    let (hours, rest) ← digits 2 2 rest
    let rest ← gap rest
    let (minutes, rest) ← digits 2 2 rest
    if hours < 24 ∧ minutes < 60 then some (s * (hours * 60 + minutes), rest) else none

/-- The instant of a text in exactly the form of RFC 3339. -/
def read (s : String) : Option Instant := do
  let (year, rest) ← digits 4 4 s.toList
  let (month, rest) ← digits 2 2 (← mark '-' rest)
  let (day, rest) ← digits 2 2 (← mark '-' rest)
  let (hour, rest) ← digits 2 2 (← separator rest)
  let (minute, rest) ← digits 2 2 (← mark ':' rest)
  let (second, rest) ← digits 2 2 (← mark ':' rest)
  let (nano, rest) ← fraction rest
  let (minutes, rest) ← offset (mark ':') rest
  if rest = [] then (Civil.mk ⟨year, month, day⟩ hour minute second nano).instant? minutes
  else none

/-- Reads a year: up to four digits, or any number of them behind a sign. -/
def signedYear (cs : List Char) : Option (Int × List Char) :=
  match cs with
  | '+' :: rest => (digits 1 rest.length rest).map fun (n, rest) => ((n : Int), rest)
  | '-' :: rest => (digits 1 rest.length rest).map fun (n, rest) => (-(n : Int), rest)
  | cs => (digits 1 4 cs).map fun (n, rest) => ((n : Int), rest)

/-- Passes over a mark with blanks in front of it, and over the blanks behind it. -/
def loosely (c : Char) (cs : List Char) : Option (List Char) :=
  (mark c (Text.trimStart cs)).map Text.trimStart

/-- Reads an offset after blanks: the letters of universal time in either case, or an offset with
colons and blanks, or nothing, between hours and minutes. -/
def looseOffset (cs : List Char) : Option (Int × List Char) :=
  let rest := Text.trimStart cs
  if (rest.take 3).map Char.toLower = "utc".toList then some (0, rest.drop 3)
  else offset (fun cs => some (cs.dropWhile fun c => c == ':' || Text.isBlank c)) rest

/-- The instant of a text in a looser form: months to seconds may have one digit, and blanks may
stand before each number and each mark, and at the end. -/
def readLoosely (s : String) : Option Instant := do
  let (year, rest) ← signedYear (Text.trimStart s.toList)
  let (month, rest) ← digits 1 2 (← loosely '-' rest)
  let (day, rest) ← digits 1 2 (← loosely '-' rest)
  let (hour, rest) ← digits 1 2 (Text.trimStart (← separator rest))
  let (minute, rest) ← digits 1 2 (← loosely ':' rest)
  let (second, rest) ← digits 1 2 (← loosely ':' rest)
  let (nano, rest) ← fraction rest
  let (minutes, rest) ← looseOffset rest
  if Text.trimStart rest = [] then
    (Civil.mk ⟨year, month, day⟩ hour minute second nano).instant? minutes
  else none

end Quotation.Instant
