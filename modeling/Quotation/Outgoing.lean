import Quotation.Wire.Frame

/-!
# Outgoing messages

Messages that wait to be sent, as the store keeps them, and the frames they are sent in.

* `OutgoingMessage`, with its binary form, the one that is kept, and its JSON form;
* `OutgoingMessage.frame`: what is sent.
-/

namespace Quotation

/-- A message that waits to be sent. One with a resend request carries nothing else. -/
structure OutgoingMessage where
  thread : ThreadId
  timestamp : UInt64
  body : Option String := none
  ranges : Option TextRanges := none
  attachments : List AttachmentId := []
  sticker : Option Sticker := none
  contact : Option ContactCard := none
  quote : Option WireQuote := none
  resend : Option ResendRequest := none
  deriving DecidableEq, Repr

namespace OutgoingMessage

/-- Whether there is nothing in a message that its reader would see. -/
def hasNoContent (m : OutgoingMessage) : Bool :=
  m.body.isNone && m.ranges.isNone && m.attachments.isEmpty && m.sticker.isNone &&
    m.contact.isNone && m.quote.isNone

/-- What is sent: the resend request if there is one, and else the content. -/
def frame (m : OutgoingMessage) : Frame :=
  match m.resend with
  | some r => .decryptionError r
  | none => .data
    { timestamp := m.timestamp
      body := m.body
      ranges := m.ranges
      attachments := m.attachments
      sticker := m.sticker
      contact := m.contact
      quote := m.quote }

/-- The binary form. -/
def binary : Binary.Codec OutgoingMessage :=
  (ThreadId.binary.pair (Binary.Codec.word64.pair (Binary.Codec.text.option.pair
      (TextRanges.binary.option.pair (AttachmentId.binary.list.pair
        (Sticker.binary.option.pair (ContactCard.binary.option.pair
          (WireQuote.binary.option.pair ResendRequest.binary.option)))))))).imap
    (fun (thread, timestamp, body, ranges, attachments, sticker, contact, quote, resend) =>
      ⟨thread, timestamp, body, ranges, attachments, sticker, contact, quote, resend⟩)
    fun m => (m.thread, m.timestamp, m.body, m.ranges, m.attachments, m.sticker, m.contact,
      m.quote, m.resend)

/-- The JSON form. -/
def json : Json.Codec OutgoingMessage :=
  .record <| ((Json.Fields.required "thread_id" ThreadId.json).append
      ((Json.Fields.required "timestamp" .word64).append
        ((Json.Fields.optional "body" .text).append
          ((Json.Fields.optional "body_ranges" TextRanges.json).append
            ((Json.Fields.required "attachment_ids" AttachmentId.json.list).append
              ((Json.Fields.optional "sticker" Sticker.json).append
                ((Json.Fields.optional "contact_share" ContactCard.json).append
                  ((Json.Fields.optional "quoted_message" WireQuote.json).append
                    (.optional "resend_request" ResendRequest.json))))))))).imap
    (fun (thread, timestamp, body, ranges, attachments, sticker, contact, quote, resend) =>
      ⟨thread, timestamp, body, ranges, attachments, sticker, contact, quote, resend⟩)
    fun m => (m.thread, m.timestamp, m.body, m.ranges, m.attachments, m.sticker, m.contact,
      m.quote, m.resend)

end OutgoingMessage

end Quotation
