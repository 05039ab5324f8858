import Quotation.Text.Blank
import Quotation.Text.Hex

/-!
# Universally unique identifiers

Sixteen octets with four textual forms: thirty-two hexadecimal digits, the same in five groups with
hyphens between them, and the hyphenated form in braces or behind `urn:uuid:`.

* `Uuid.text`: the hyphenated form in lower case, the one that is written;
* `Uuid.read`: reads each of the forms, digits in either case, and says what is wrong with any other
  text.
-/

namespace Quotation

/-- A universally unique identifier. -/
structure Uuid where
  octets : Vector UInt8 16
  deriving DecidableEq, Repr

namespace Uuid

/-- What is wrong with a text that is no identifier. Lengths and places count bytes. -/
inductive Error
  | length (found : Nat)
  | character (found : Char) (position : Nat)
  | groupCount (found : Nat)
  | groupLength (group expected found : Nat)
  deriving DecidableEq, Repr

/-- The sentence that names an error. -/
def Error.message : Error → String
  | .length found => "invalid length: found " ++ toString found
  | .character found position =>
    "invalid character: found `" ++ String.singleton found ++ "` at " ++ toString position
  | .groupCount found => "invalid group count: expected 5, found " ++ toString found
  | .groupLength group expected found =>
    "invalid group length in group " ++ toString group ++ ": expected " ++ toString expected ++
      ", found " ++ toString found

/-- The identifier with the given octets, if there are sixteen. -/
def ofList? (bs : List UInt8) : Option Uuid :=
  if h : bs.toArray.size = 16 then some ⟨⟨bs.toArray, h⟩⟩ else none

/-- The thirty-two digits, in lower case. -/
def digits (u : Uuid) : List Char :=
  u.octets.toList.flatMap Text.Hex.digits

/-- Thirty-two digits in groups of eight, four, four, four and twelve, with hyphens between. -/
def hyphenate (cs : List Char) : List Char :=
  cs.take 8 ++ '-' :: (cs.drop 8).take 4 ++ '-' :: (cs.drop 12).take 4 ++
    '-' :: (cs.drop 16).take 4 ++ '-' :: cs.drop 20

/-- The written form: lower-case digits in five groups. -/
def text (u : Uuid) : String :=
  String.ofList (hyphenate u.digits)

/-- The identifier that thirty-two digits spell. -/
def ofDigits? (cs : List Char) : Option Uuid :=
  (Text.Hex.decodeDigits cs).toOption.bind ofList?

/-- The identifier that a hyphenated text spells: the hyphens are where `hyphenate` puts them. -/
def ofHyphenated? (cs : List Char) : Option Uuid :=
  let bare := cs.take 8 ++ (cs.drop 9).take 4 ++ (cs.drop 14).take 4 ++ (cs.drop 19).take 4 ++
    cs.drop 24
  if hyphenate bare = cs then ofDigits? bare else none

/-- The number of bytes that a list of characters takes. -/
def byteCount (cs : List Char) : Nat :=
  (String.ofList cs).utf8ByteSize

/-- The text that marks an identifier as a name of the uuid scheme. -/
def scheme : List Char := "urn:uuid:".toList

/-- The characters behind the scheme mark, which may be in either case. -/
def afterScheme? (cs : List Char) : Option (List Char) :=
  if (cs.take 9).map Char.toLower = scheme then some (cs.drop 9) else none

/-- The characters between an opening and a closing brace. -/
def insideBraces? (cs : List Char) : Option (List Char) :=
  match cs with
  | '\x7b' :: rest => if rest.getLast? = some '\x7d' then some rest.dropLast else none
  | _ => none

/-- The part of a text that has to be hyphenated, judged by its length: all of 36 bytes, the inside
of braces in 38, what follows the scheme mark in 45. -/
def hyphenatedPart? (cs : List Char) : Option (List Char) :=
  let n := byteCount cs
  if n = 36 then some cs
  else if n = 38 then insideBraces? cs
  else if n = 45 then afterScheme? cs
  else none

/-- The places of the hyphens in characters that begin at byte `position`, or the first character
that is neither a digit nor a hyphen. -/
def hyphens (position : Nat) : List Char → Except Error (List Nat)
  | [] => .ok []
  | c :: cs =>
    if (Text.hexValue? c).isSome then hyphens (position + c.utf8Size) cs
    else if c = '-' then (hyphens (position + 1) cs).map (position :: ·)
    else .error (.character c position)

/-- The fault in the grouping of a text with hyphens at the given places, counted from the start of
the digits; `length` is that of the whole text. -/
def groupFault (length : Nat) : List Nat → Error
  | [a, b, c, d] =>
    if a ≠ 8 then .groupLength 0 8 a
    else if b ≠ 13 then .groupLength 1 4 (b - 9)
    else if c ≠ 18 then .groupLength 2 4 (c - 14)
    else if d ≠ 23 then .groupLength 3 4 (d - 19)
    else .groupLength 4 12 (length - 24)
  | places => .groupCount (places.length + 1)

/-- What is wrong with a text that should be hyphenated digits from byte `start` on. -/
def faultFrom (start length : Nat) (cs : List Char) : Error :=
  match hyphens start cs with
  | .error e => e
  | .ok places => groupFault length (places.map (· - start))

/-- What is wrong with a text of no particular form. -/
def fault (cs : List Char) : Error :=
  let n := byteCount cs
  if n = 0 ∨ 45 < n then .length n
  else match insideBraces? cs with
    | some inside => faultFrom 1 n inside
    | none => match afterScheme? cs with
      | some rest => faultFrom 9 n rest
      | none => match hyphens 0 cs with
        | .error e => e
        | .ok [] => .length n
        | .ok places => groupFault n places

/-- The identifier that a text spells, or what is wrong with the text. -/
def read (s : String) : Except Error Uuid :=
  let cs := s.toList
  match hyphenatedPart? cs with
  | some part =>
    match ofHyphenated? part with
    | some u => .ok u
    | none => .error (faultFrom 0 (byteCount part) part)
  | none =>
    match ofDigits? cs with
    | some u => .ok u
    | none => .error (fault cs)

end Uuid

end Quotation
