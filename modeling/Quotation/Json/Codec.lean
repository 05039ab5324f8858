import Quotation.Json.Reader
import Quotation.Json.Writer
import Quotation.Uuid

/-!
# Values of a type as JSON

A `Json.Codec` presents the values of a type as JSON and takes them back.

* primitive codecs: `text`, `bool`, `below` for numbers, `uuid`;
* building blocks: `imap`, `option`, `list`, `octets`;
* `Fields`, the named parts of a record, and `record`: an object whose unknown members are passed
  over, or an array of exactly the parts in order. An optional part may be left out; no name of a
  part may occur twice;
* `Case` and `choice`: a choice is the name of its case, or an object whose one member has that
  name.
-/

namespace Quotation.Json

/-- A way to present the values of a type as JSON and to take them back. -/
structure Codec (α : Type) where
  encode : α → Json
  decode : Json → Option α

namespace Codec

variable {α β : Type}

/-- A text. -/
def text : Codec String where
  encode := Json.text
  decode
    | .text s => some s
    | _ => none

/-- A truth value. -/
def bool : Codec Bool where
  encode := Json.bool
  decode
    | .bool b => some b
    | _ => none

/-- A natural number below a bound. -/
def below (bound : Nat) : Codec (Fin bound) where
  encode n := .number (.natural n.val)
  decode
    | .number (.natural n) => if h : n < bound then some ⟨n, h⟩ else none
    | _ => none

/-- The same JSON for another presentation of the values. -/
def imap (c : Codec α) (f : α → β) (g : β → α) : Codec β where
  encode b := c.encode (g b)
  decode j := (c.decode j).map f

/-- A byte. -/
def byte : Codec UInt8 :=
  (below UInt8.size).imap UInt8.ofFin UInt8.toFin

/-- A 32-bit number. -/
def word32 : Codec UInt32 :=
  (below UInt32.size).imap UInt32.ofFin UInt32.toFin

/-- A 64-bit number. -/
def word64 : Codec UInt64 :=
  (below UInt64.size).imap UInt64.ofFin UInt64.toFin

/-- An identifier: written in the hyphenated form, read in every form. -/
def uuid : Codec Uuid where
  encode u := .text u.text
  decode
    | .text s => (Uuid.read s).toOption
    | _ => none

/-- An optional value; null stands for none. -/
def option (c : Codec α) : Codec (Option α) where
  encode o := o.elim .null c.encode
  decode
    | .null => some none
    | j => (c.decode j).map some

/-- A list of values. -/
def list (c : Codec α) : Codec (List α) where
  encode xs := .array (xs.map c.encode)
  decode
    | .array js => js.mapM c.decode
    | _ => none

/-- Exactly `n` octets, as numbers. -/
def octets (n : Nat) : Codec (Vector UInt8 n) where
  encode v := (list byte).encode v.toList
  decode j := do
    let bs ← (list byte).decode j
    if h : bs.toArray.size = n then some ⟨bs.toArray, h⟩ else none

/-- The text of a value. -/
def print (c : Codec α) (a : α) : String :=
  (c.encode a).compact

/-- The value that a text presents. -/
def parse (c : Codec α) (s : String) : Option α :=
  (Json.read s).bind c.decode

end Codec

/-- The parts of a record: their names, their values, and the record made of what was found under
each name. -/
structure Fields (α : Type) where
  names : List String
  encode : α → List Json
  decode : List (Option Json) → Option α

namespace Fields

variable {α β : Type}

/-- A part that has to be there. -/
def required (name : String) (c : Codec α) : Fields α where
  names := [name]
  encode a := [c.encode a]
  decode
    | [some j] => c.decode j
    | _ => none

/-- A part that may be left out. -/
def optional (name : String) (c : Codec α) : Fields (Option α) where
  names := [name]
  encode o := [c.option.encode o]
  decode
    | [some j] => c.option.decode j
    | [none] => some none
    | _ => none

/-- The parts of one record in front of those of another. -/
def append (f : Fields α) (g : Fields β) : Fields (α × β) where
  names := f.names ++ g.names
  encode p := f.encode p.1 ++ g.encode p.2
  decode slots := do
    let a ← f.decode (slots.take f.names.length)
    let b ← g.decode (slots.drop f.names.length)
    return (a, b)

/-- The parts joined to the values of a type. -/
def imap (f : Fields α) (make : α → β) (parts : β → α) : Fields β where
  names := f.names
  encode b := f.encode (parts b)
  decode slots := (f.decode slots).map make

/-- The members of the object that presents a record, in order. -/
def members (f : Fields α) (a : α) : List (String × Json) :=
  f.names.zip (f.encode a)

end Fields

/-- Whether a name occurs at most once among the members of an object. -/
def occursOnce (members : List (String × Json)) (name : String) : Bool :=
  (members.filter fun m => m.1 == name).length ≤ 1

namespace Codec

variable {α β : Type}

/-- A record by its parts. -/
def record (f : Fields α) : Codec α where
  encode a := .object (f.members a)
  decode
    | .object members =>
      if f.names.all (occursOnce members) then
        f.decode (f.names.map fun name => members.lookup name)
      else none
    | .array items =>
      if items.length = f.names.length then f.decode (items.map some) else none
    | _ => none

end Codec

/-- One case of a choice. A value of another case has no content here; content `none` stands for a
case without any. -/
structure Case (α : Type) where
  name : String
  content? : α → Option (Option Json)
  ofContent? : Option Json → Option α

namespace Case

variable {α β : Type}

/-- A case without content. -/
def plain [DecidableEq α] (name : String) (a : α) : Case α where
  name := name
  content? x := if x = a then some none else none
  ofContent?
    | none => some a
    | some .null => some a
    | some _ => none

/-- A case with content: the values that `f` makes, with `g` to undo it. -/
def holding (name : String) (c : Codec α) (f : α → β) (g : β → Option α) : Case β where
  name := name
  content? b := (g b).map fun a => some (c.encode a)
  ofContent?
    | none => none
    | some j => (c.decode j).map f

/-- The JSON of a name with its content. -/
def present (name : String) : Option Json → Json
  | none => .text name
  | some j => .object [(name, j)]

/-- The JSON of a value by the first case that has content for it. -/
def encode (a : α) : List (Case α) → Json
  | [] => .null
  | c :: cs =>
    match c.content? a with
    | some content => present c.name content
    | none => encode a cs

/-- The value of the case with the given name. -/
def decode (name : String) (content : Option Json) : List (Case α) → Option α
  | [] => none
  | c :: cs => if c.name = name then c.ofContent? content else decode name content cs

end Case

/-- A choice by its cases. -/
def Codec.choice {α : Type} (cases : List (Case α)) : Codec α where
  encode a := Case.encode a cases
  decode
    | .text name => Case.decode name none cases
    | .object [(name, j)] => Case.decode name (some j) cases
    | _ => none

end Quotation.Json
