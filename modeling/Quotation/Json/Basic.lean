import Quotation.Text.Digits

/-!
# JSON values

The values of the JSON data format. The members of an object keep their order and a name may occur
twice; a number is natural or it is kept as it was written.

* `Json`, `Json.Number`;
* `Json.Token`: the words of the format, with `Token.ofBare?` for those that stand without quotes;
* `Json.member?`: the value under a name.
-/

namespace Quotation

/-- A number of the JSON format: a run of digits, or anything longer with its spelling. -/
inductive Json.Number
  | natural (n : Nat)
  | other (spelling : List Char)
  deriving DecidableEq, Repr

/-- A JSON value. -/
inductive Json
  | null
  | bool (b : Bool)
  | number (n : Json.Number)
  | text (s : String)
  | array (items : List Json)
  | object (members : List (String × Json))
  deriving Repr, Inhabited

namespace Json

/-- The number that a spelling without sign, point and exponent stands for; zero has no second
digit behind it. -/
def natural? (cs : List Char) : Option Nat :=
  match cs with
  | '0' :: _ :: _ => none
  | cs => Text.readNat? cs

/-- A run of digits, possibly behind a sign. -/
def isExponent (cs : List Char) : Bool :=
  match cs with
  | '+' :: ds => (Text.readNat? ds).isSome
  | '-' :: ds => (Text.readNat? ds).isSome
  | ds => (Text.readNat? ds).isSome

/-- What may follow the whole part of a number: a fraction, an exponent, both or nothing. -/
def isTail (cs : List Char) : Bool :=
  let isExponentMark (c : Char) : Bool := c == 'e' || c == 'E'
  let exponentOk (cs : List Char) : Bool :=
    match cs with
    | [] => true
    | _ :: ds => isExponent ds
  match cs with
  | '.' :: ds =>
    (Text.readNat? (ds.takeWhile fun c => !isExponentMark c)).isSome &&
      exponentOk (ds.dropWhile fun c => !isExponentMark c)
  | [] => true
  | c :: ds => isExponentMark c && isExponent ds

/-- A spelling as a number: a whole part, then possibly a fraction and an exponent, and a minus sign
in front at most. -/
def Number.ofSpelling? (cs : List Char) : Option Number :=
  let unsigned := match cs with
    | '-' :: rest => rest
    | cs => cs
  let whole := unsigned.takeWhile Char.isDigit
  let tail := unsigned.dropWhile Char.isDigit
  if (natural? whole).isSome && isTail tail then
    if cs = whole then (natural? whole).map .natural else some (.other cs)
  else none

/-- A word of the format. -/
inductive Token
  | openArray
  | closeArray
  | openObject
  | closeObject
  | comma
  | colon
  | null
  | bool (b : Bool)
  | number (n : Number)
  | text (s : String)
  deriving DecidableEq, Repr

/-- The word that a run of characters without quotes, blanks and punctuation spells. -/
def Token.ofBare? (cs : List Char) : Option Token :=
  if cs = "null".toList then some .null
  else if cs = "true".toList then some (.bool true)
  else if cs = "false".toList then some (.bool false)
  else (Number.ofSpelling? cs).map .number

/-- The word that a single punctuation mark is. -/
def Token.ofMark? (c : Char) : Option Token :=
  if c = '[' then some .openArray
  else if c = ']' then some .closeArray
  else if c = '\x7b' then some .openObject
  else if c = '\x7d' then some .closeObject
  else if c = ',' then some .comma
  else if c = ':' then some .colon
  else none

/-- The four characters that may stand between words. -/
def isSpace (c : Char) : Bool :=
  c == ' ' || c == '\n' || c == '\t' || c == '\r'

/-- The value under a name: the first one if the name occurs twice. -/
def member? (name : String) : Json → Option Json
  | .object members => members.lookup name
  | _ => none

end Json

end Quotation
