import Quotation.Identity

/-!
# Styled text

The ranges of a text that are set apart: formatted, hidden, or standing for the name of an account.

* `TextStyle`, `TextRange`, `TextRanges`, each with its binary and its JSON form.
-/

namespace Quotation

/-- What a range of text is. -/
inductive TextStyle
  /-- The name of an account. -/
  | mention (account : Uuid)
  | bold
  | italic
  | spoiler
  | strikethrough
  | monospace
  deriving DecidableEq, Repr

/-- A style on a stretch of text, counted in the units of the sender. -/
structure TextRange where
  start : UInt32
  length : UInt32
  style : TextStyle
  deriving DecidableEq, Repr

/-- The styled ranges of one text. -/
structure TextRanges where
  ranges : List TextRange
  deriving DecidableEq, Repr

namespace TextStyle

/-- The account that a mention names. -/
def account? : TextStyle → Option Uuid
  | mention u => some u
  | _ => none

/-- The number of a style in the binary form. -/
def index : TextStyle → UInt32
  | mention _ => 0
  | bold => 1
  | italic => 2
  | spoiler => 3
  | strikethrough => 4
  | monospace => 5

/-- The binary form. -/
def binary : Binary.Codec TextStyle :=
  .switch index fun i =>
    if i = 0 then some (Binary.Codec.uuid.arm mention account?)
    else if i = 1 then some (.constant bold)
    else if i = 2 then some (.constant italic)
    else if i = 3 then some (.constant spoiler)
    else if i = 4 then some (.constant strikethrough)
    else if i = 5 then some (.constant monospace)
    else none

/-- The JSON form. -/
def json : Json.Codec TextStyle :=
  .choice [.holding "Mention" .uuid mention account?, .plain "Bold" bold, .plain "Italic" italic,
    .plain "Spoiler" spoiler, .plain "Strikethrough" strikethrough, .plain "Monospace" monospace]

end TextStyle

namespace TextRange

/-- The binary form. -/
def binary : Binary.Codec TextRange :=
  (Binary.Codec.word32.pair (Binary.Codec.word32.pair TextStyle.binary)).imap
    (fun (start, length, style) => ⟨start, length, style⟩) fun r => (r.start, r.length, r.style)

/-- The JSON form. -/
def json : Json.Codec TextRange :=
  .record <| ((Json.Fields.required "start" .word32).append
      ((Json.Fields.required "length" .word32).append (.required "style" TextStyle.json))).imap
    (fun (start, length, style) => ⟨start, length, style⟩) fun r => (r.start, r.length, r.style)

end TextRange

namespace TextRanges

/-- Whether there is no range. -/
def isEmpty (r : TextRanges) : Bool := r.ranges.isEmpty

/-- The binary form. -/
def binary : Binary.Codec TextRanges := TextRange.binary.list.imap .mk ranges

/-- The JSON form. -/
def json : Json.Codec TextRanges :=
  .record <| (Json.Fields.required "ranges" TextRange.json.list).imap .mk ranges

end TextRanges

end Quotation
