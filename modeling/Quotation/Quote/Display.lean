import Quotation.Quote.Snapshot

/-!
# Showing a snapshot

* `Snapshot.json`: time, author and origin, then the kind of quote and the parts that this kind has,
  all in one object.
-/

namespace Quotation

/-- The JSON of what this device has of an attachment. -/
def HeldState.json : HeldState → Json
  | stream s => .object [("stream", AttachmentStream.json.encode s)]
  | failedThumbnail p => .object [("failed_thumbnail", AttachmentPointer.json.encode p)]
  | unavailable => .text "unavailable"

/-- The JSON of a quoted attachment. -/
def QuotedAttachment.json (a : QuotedAttachment) : Json :=
  .object [("content_type", Json.Codec.text.option.encode a.contentType),
    ("source_filename", Json.Codec.text.option.encode a.sourceFilename), ("state", a.state.json)]

/-- The members that show a content: its kind, and what this kind has. -/
def Content.members : Content → List (String × Json)
  | text body ranges =>
    [("shape", .text "text"), ("body", .text body),
      ("body_ranges", TextRanges.json.option.encode ranges)]
  | attachment caption ranges a =>
    [("shape", .text "attachment"), ("caption", Json.Codec.text.option.encode caption),
      ("body_ranges", TextRanges.json.option.encode ranges), ("attachment", a.json)]
  | sticker info a =>
    [("shape", .text "sticker"), ("sticker", StickerRef.json.encode info), ("attachment", a.json)]
  | contactShare name => [("shape", .text "contact_share"), ("display_name", .text name)]
  | remotelyDeleted => [("shape", .text "remotely_deleted")]
  | viewOnceExpired => [("shape", .text "view_once_expired")]

/-- The JSON of a snapshot. -/
def Snapshot.json (s : Snapshot) : Json :=
  .object <|
    [("timestamp", Json.Codec.word64.encode s.timestamp), ("author", Address.json.encode s.author),
      ("is_remotely_sourced", .bool s.isRemotelySourced)] ++ s.content.members

end Quotation
