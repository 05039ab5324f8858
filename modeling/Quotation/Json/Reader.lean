import Quotation.Json.Basic

/-!
# Reading JSON

A text is read character by character, in one pass and without recursion on depth. A `Scan` is what
is known of the word that is being read, a `Build` what is known of the value: the arrays and
objects that are still open, innermost first, and what may come next.

* `Scan.step`: one more character, which may finish a word;
* `Build.step`: one more word;
* `Json.read`: the value that a whole text spells.
-/

namespace Quotation.Json

/-- The place of a scan within a word. A high surrogate is kept until its partner is read. -/
inductive Scan
  /-- Between two words. -/
  | between
  /-- In a word without quotes; its characters so far, the last one first. -/
  | bare (seen : List Char)
  /-- In a quoted text. -/
  | quoted (seen : List Char)
  /-- Behind a high surrogate, where only the escape of a low one may follow. -/
  | unpaired (seen : List Char) (high : Nat)
  /-- Behind a backslash. -/
  | escape (seen : List Char) (high : Option Nat)
  /-- Among the four digits of a code unit. -/
  | unit (seen : List Char) (high : Option Nat) (digits value : Nat)
  deriving DecidableEq, Repr

/-- The character that a backslash and a letter stand for. -/
def escaped? (c : Char) : Option Char :=
  if c = '\x22' then some '\x22'
  else if c = '\\' then some '\\'
  else if c = '/' then some '/'
  else if c = 'b' then some '\x08'
  else if c = 'f' then some '\x0c'
  else if c = 'n' then some '\n'
  else if c = 'r' then some '\r'
  else if c = 't' then some '\t'
  else none

/-- Takes a finished code unit into the text: as a character, as a high surrogate that waits, or as
the low one that completes it. A surrogate without partner is no text. -/
def Scan.ofUnit (seen : List Char) (high : Option Nat) (value : Nat) : Option Scan :=
  match high with
  | none =>
    if 0xD800 ≤ value ∧ value < 0xDC00 then some (.unpaired seen value)
    else if 0xDC00 ≤ value ∧ value < 0xE000 then none
    else some (.quoted (Char.ofNat value :: seen))
  | some h =>
    if 0xDC00 ≤ value ∧ value < 0xE000 then
      some (.quoted (Char.ofNat (0x10000 + (h - 0xD800) * 0x400 + (value - 0xDC00)) :: seen))
    else none

/-- Begins a new word with a character, or passes over a blank. A punctuation mark is a word of its
own. -/
def Scan.start (c : Char) : Scan × List Token :=
  if isSpace c then (.between, [])
  else if c = '\x22' then (.quoted [], [])
  else match Token.ofMark? c with
    | some t => (.between, [t])
    | none => (.bare [c], [])

/-- Whether a character ends a word without quotes. -/
def endsBare (c : Char) : Bool :=
  isSpace c || c == '\x22' || (Token.ofMark? c).isSome

/-- One more character: the new place and the words that it finished. -/
def Scan.step (s : Scan) (c : Char) : Option (Scan × List Token) :=
  match s with
  | .between => some (Scan.start c)
  | .bare seen =>
    if endsBare c then do
      let t ← Token.ofBare? seen.reverse
      let (s, ts) := Scan.start c
      return (s, t :: ts)
    else some (.bare (c :: seen), [])
  | .quoted seen =>
    if c = '\x22' then some (.between, [.text (String.ofList seen.reverse)])
    else if c = '\\' then some (.escape seen none, [])
    else if c.toNat < 32 then none
    else some (.quoted (c :: seen), [])
  | .unpaired seen high => if c = '\\' then some (.escape seen (some high), []) else none
  | .escape seen high =>
    if c = 'u' then some (.unit seen high 0 0, [])
    else if high.isSome then none
    else (escaped? c).map fun e => (.quoted (e :: seen), [])
  | .unit seen high digits value => do
    let d ← Text.hexValue? c
    if digits = 3 then do
      let s ← Scan.ofUnit seen high (16 * value + d)
      return (s, [])
    else some (.unit seen high (digits + 1) (16 * value + d), [])

/-- The words that the end of the text finishes. -/
def Scan.finish : Scan → Option (List Token)
  | .between => some []
  | .bare seen => (Token.ofBare? seen.reverse).map ([·])
  | _ => none

/-- An array or object that is still open; what it holds so far, the last one first. -/
inductive Frame
  | array (items : List Json)
  | object (members : List (String × Json))
  | member (members : List (String × Json)) (key : String)
  deriving Repr

/-- The place of a value among the words. -/
inductive Build
  /-- A value has to come. -/
  | value (frames : List Frame)
  /-- A first item or the end of the array. -/
  | firstItem (frames : List Frame)
  /-- A first name or the end of the object. -/
  | firstName (frames : List Frame)
  /-- A further name. -/
  | nextName (frames : List Frame) (members : List (String × Json))
  /-- The colon behind a name. -/
  | colon (frames : List Frame) (members : List (String × Json)) (key : String)
  /-- A comma or the end of the innermost frame. -/
  | more (frame : Frame) (frames : List Frame)
  /-- The value is complete. -/
  | done (value : Json)
  deriving Repr

/-- Puts a finished value into the innermost open frame. -/
def Build.supply (j : Json) : List Frame → Build
  | [] => .done j
  | .array items :: frames => .more (.array (j :: items)) frames
  | .object members :: frames => .more (.object members) frames
  | .member members key :: frames => .more (.object ((key, j) :: members)) frames

/-- The value that a single word is, or the frame that it opens. -/
def Build.begin (frames : List Frame) : Token → Option Build
  | .null => some (.supply .null frames)
  | .bool b => some (.supply (.bool b) frames)
  | .number n => some (.supply (.number n) frames)
  | .text s => some (.supply (.text s) frames)
  | .openArray => some (.firstItem frames)
  | .openObject => some (.firstName frames)
  | _ => none

/-- One more word. -/
def Build.step (b : Build) (t : Token) : Option Build :=
  match b with
  | .value frames => Build.begin frames t
  | .firstItem frames =>
    if t = .closeArray then some (.supply (.array []) frames)
    else Build.begin (.array [] :: frames) t
  | .firstName frames =>
    match t with
    | .closeObject => some (.supply (.object []) frames)
    | .text s => some (.colon frames [] s)
    | _ => none
  | .nextName frames members =>
    match t with
    | .text s => some (.colon frames members s)
    | _ => none
  | .colon frames members key =>
    if t = .colon then some (.value (.member members key :: frames)) else none
  | .more (.array items) frames =>
    match t with
    | .comma => some (.value (.array items :: frames))
    | .closeArray => some (.supply (.array items.reverse) frames)
    | _ => none
  | .more (.object members) frames =>
    match t with
    | .comma => some (.nextName frames members)
    | .closeObject => some (.supply (.object members.reverse) frames)
    | _ => none
  | .more (.member _ _) _ => none
  | .done _ => none

/-- Reads a text from a given place in a word and in a value on. -/
def readFrom (s : Scan) (b : Build) : List Char → Option Build
  | [] => do
    let ts ← s.finish
    ts.foldlM Build.step b
  | c :: cs =>
    match s.step c with
    | none => none
    | some (s, ts) =>
      match ts.foldlM Build.step b with
      | none => none
      | some b => readFrom s b cs

/-- The value that a text spells, if it spells exactly one. -/
def read (s : String) : Option Json :=
  match readFrom .between (.value []) s.toList with
  | some (.done j) => some j
  | _ => none

end Quotation.Json
