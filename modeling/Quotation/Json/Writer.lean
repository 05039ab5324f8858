import Quotation.Json.Basic

/-!
# Writing JSON

A value is written on one line without any blanks, or laid out over lines with two blanks of
indentation a level. A text escapes what the format cannot hold raw: quotes, backslashes and the
characters below the blank.

* `writeText`: a text between quotes;
* `Json.compact`, `Json.pretty`: the two layouts.
-/

namespace Quotation.Json

/-- A character inside quotes: raw, behind a backslash, or as four digits. -/
def escapeChar (c : Char) : List Char :=
  if c = '\x22' then ['\\', '\x22']
  else if c = '\\' then ['\\', '\\']
  else if c = '\x08' then ['\\', 'b']
  else if c = '\x0c' then ['\\', 'f']
  else if c = '\n' then ['\\', 'n']
  else if c = '\r' then ['\\', 'r']
  else if c = '\t' then ['\\', 't']
  else if c.toNat < 32 then
    ['\\', 'u', '0', '0', Text.hexDigit (c.toNat / 16), Text.hexDigit (c.toNat % 16)]
  else [c]

/-- A text between quotes. -/
def writeText (s : String) : List Char :=
  '\x22' :: s.toList.flatMap escapeChar ++ ['\x22']

/-- How the parts of a value are set apart. -/
inductive Layout
  | compact
  | indented
  deriving DecidableEq, Repr

/-- What stands in front of an item at a depth. -/
def Layout.newline (layout : Layout) (depth : Nat) : List Char :=
  match layout with
  | .compact => []
  | .indented => '\n' :: List.replicate (2 * depth) ' '

/-- What stands between a name and its value. -/
def Layout.colon : Layout → List Char
  | .compact => [':']
  | .indented => [':', ' ']

/-- A number as it is spelled. -/
def Number.spelling : Number → List Char
  | .natural n => Nat.toDigits 10 n
  | .other cs => cs

mutual

/-- A value at a depth. -/
def write (layout : Layout) (depth : Nat) : Json → List Char
  | .null => "null".toList
  | .bool true => "true".toList
  | .bool false => "false".toList
  | .number n => n.spelling
  | .text s => writeText s
  | .array [] => ['[', ']']
  | .array (j :: js) =>
    '[' :: layout.newline (depth + 1) ++ write layout (depth + 1) j ++
      writeItems layout (depth + 1) js ++ layout.newline depth ++ [']']
  | .object [] => ['\x7b', '\x7d']
  | .object ((name, j) :: members) =>
    '\x7b' :: layout.newline (depth + 1) ++ writeText name ++ layout.colon ++
      write layout (depth + 1) j ++ writeMembers layout (depth + 1) members ++
      layout.newline depth ++ ['\x7d']

/-- Further items, each behind a comma. -/
def writeItems (layout : Layout) (depth : Nat) : List Json → List Char
  | [] => []
  | j :: js => ',' :: layout.newline depth ++ write layout depth j ++ writeItems layout depth js

/-- Further members, each behind a comma. -/
def writeMembers (layout : Layout) (depth : Nat) : List (String × Json) → List Char
  | [] => []
  | (name, j) :: members =>
    ',' :: layout.newline depth ++ writeText name ++ layout.colon ++ write layout depth j ++
      writeMembers layout depth members

end

/-- A value on one line. -/
def compact (j : Json) : String :=
  String.ofList (write .compact 0 j)

/-- A value over several lines. -/
def pretty (j : Json) : String :=
  String.ofList (write .indented 0 j)

end Quotation.Json
