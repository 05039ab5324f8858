import Quotation.Instant.Text
import Quotation.Wire.Frame

/-!
# Messages

The messages that this device keeps, and the quotes in them.

* `Direction`, `QuoteRecord`, `Message`, with their JSON forms;
* `QuoteRecord.ofWire`: the record of a quote as it was received.
-/

namespace Quotation

/-- Whether a message came in or went out. -/
inductive Direction
  | incoming
  | outgoing
  deriving DecidableEq, Repr

/-- The quote that a kept message carries. -/
structure QuoteRecord where
  timestamp : UInt64
  author : Address
  body : Option String := none
  ranges : Option TextRanges := none
  contentType : Option String := none
  sourceFilename : Option String := none
  thumbnail : Option AttachmentId := none
  deriving DecidableEq, Repr

/-- A message that this device keeps. -/
structure Message where
  id : MessageId
  thread : ThreadId
  timestamp : UInt64
  author : Address
  direction : Direction
  body : Option String
  ranges : Option TextRanges
  attachments : List AttachmentId
  sticker : Option Sticker
  contact : Option ContactCard
  isViewOnce : Bool
  isViewOnceComplete : Bool
  wasRemotelyDeleted : Bool
  quoted : Option QuoteRecord
  receivedAt : Instant
  deriving DecidableEq, Repr

/-- The JSON form of an instant. -/
def Instant.json : Json.Codec Instant where
  encode t := .text t.shown
  decode
    | .text s => Instant.readLoosely s
    | _ => none

namespace Direction

/-- The written form. -/
def text : Direction → String
  | incoming => "incoming"
  | outgoing => "outgoing"

/-- The direction of a written form. -/
def ofText? (s : String) : Option Direction :=
  if s = "incoming" then some incoming
  else if s = "outgoing" then some outgoing
  else none

theorem ofText?_text (d : Direction) : ofText? d.text = some d := by
  cases d <;> decide

/-- The JSON form. -/
def json : Json.Codec Direction :=
  .choice [.plain "Incoming" incoming, .plain "Outgoing" outgoing]

end Direction

namespace QuoteRecord

/-- The record of a received quote. The attachment it refers to stays with the sender; a thumbnail
is known by a name of this device. -/
def ofWire (q : WireQuote) (thumbnail : Option AttachmentId) : QuoteRecord where
  timestamp := q.timestamp
  author := q.author
  body := q.body
  ranges := q.ranges
  contentType := q.contentType
  sourceFilename := q.sourceFilename
  thumbnail := thumbnail

/-- The JSON form. -/
def json : Json.Codec QuoteRecord :=
  .record <| ((Json.Fields.required "timestamp" .word64).append
      ((Json.Fields.required "author" Address.json).append
        ((Json.Fields.optional "body" .text).append
          ((Json.Fields.optional "body_ranges" TextRanges.json).append
            ((Json.Fields.optional "content_type" .text).append
              ((Json.Fields.optional "source_filename" .text).append
                (.optional "thumbnail_attachment_id" AttachmentId.json))))))).imap
    (fun (timestamp, author, body, ranges, contentType, sourceFilename, thumbnail) =>
      ⟨timestamp, author, body, ranges, contentType, sourceFilename, thumbnail⟩)
    fun r => (r.timestamp, r.author, r.body, r.ranges, r.contentType, r.sourceFilename,
      r.thumbnail)

end QuoteRecord

namespace Message

/-- The parts of the JSON form. -/
def fields : Json.Fields Message :=
  ((Json.Fields.required "id" MessageId.json).append
    ((Json.Fields.required "thread_id" ThreadId.json).append
      ((Json.Fields.required "timestamp" .word64).append
        ((Json.Fields.required "author" Address.json).append
          ((Json.Fields.required "direction" Direction.json).append
            ((Json.Fields.optional "body" .text).append
              ((Json.Fields.optional "body_ranges" TextRanges.json).append
                ((Json.Fields.required "attachment_ids" AttachmentId.json.list).append
                  ((Json.Fields.optional "sticker" Sticker.json).append
                    ((Json.Fields.optional "contact_share" ContactCard.json).append
                      ((Json.Fields.required "is_view_once" .bool).append
                        ((Json.Fields.required "is_view_once_complete" .bool).append
                          ((Json.Fields.required "was_remotely_deleted" .bool).append
                            ((Json.Fields.optional "quoted_message" QuoteRecord.json).append
                              (.required "received_at" Instant.json))))))))))))))).imap
    (fun (id, thread, timestamp, author, direction, body, ranges, attachments, sticker, contact,
        isViewOnce, isViewOnceComplete, wasRemotelyDeleted, quoted, receivedAt) =>
      ⟨id, thread, timestamp, author, direction, body, ranges, attachments, sticker, contact,
        isViewOnce, isViewOnceComplete, wasRemotelyDeleted, quoted, receivedAt⟩)
    fun m => (m.id, m.thread, m.timestamp, m.author, m.direction, m.body, m.ranges, m.attachments,
      m.sticker, m.contact, m.isViewOnce, m.isViewOnceComplete, m.wasRemotelyDeleted, m.quoted,
      m.receivedAt)

/-- The JSON form. -/
def json : Json.Codec Message := .record fields

end Message

end Quotation
