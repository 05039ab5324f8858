import Quotation.Content.Styling
import Quotation.Content.Sticker
import Quotation.Content.Contact
import Quotation.Wire.Cipher

/-!
# Frames

What two devices send each other: a message with its content, or the request to send an envelope
again that could not be decrypted.

* `WireAttachment`, `WireQuote`, `DataMessage`, `ResendRequest`, `Frame`, each with its binary and
  its JSON form;
* `Frame.toBytes`, `Frame.ofBytes`.
-/

namespace Quotation

/-- An attachment as another device can fetch it. -/
structure WireAttachment where
  id : AttachmentId
  contentType : String
  byteCount : UInt64
  digest : Vector UInt8 32
  deriving DecidableEq, Repr

/-- The quote in a message: author and time name the message that is quoted. -/
structure WireQuote where
  author : Address
  timestamp : UInt64
  body : Option String := none
  ranges : Option TextRanges := none
  attachment : Option WireAttachment := none
  contentType : Option String := none
  sourceFilename : Option String := none
  deriving DecidableEq, Repr

/-- A message with its content. -/
structure DataMessage where
  timestamp : UInt64
  body : Option String := none
  ranges : Option TextRanges := none
  attachments : List AttachmentId := []
  sticker : Option Sticker := none
  contact : Option ContactCard := none
  quote : Option WireQuote := none
  deriving DecidableEq, Repr

/-- The request to send an envelope again, with the content that could not be decrypted. -/
structure ResendRequest where
  content : List UInt8
  cipher : Cipher
  timestamp : UInt64
  senderDevice : UInt32
  deriving DecidableEq, Repr

/-- What one device sends to another. -/
inductive Frame
  | data (message : DataMessage)
  | decryptionError (request : ResendRequest)
  deriving DecidableEq, Repr

namespace WireAttachment

/-- The binary form. -/
def binary : Binary.Codec WireAttachment :=
  (AttachmentId.binary.pair (Binary.Codec.text.pair (Binary.Codec.word64.pair (.octets 32)))).imap
    (fun (id, contentType, byteCount, digest) => ⟨id, contentType, byteCount, digest⟩)
    fun a => (a.id, a.contentType, a.byteCount, a.digest)

/-- The JSON form. -/
def json : Json.Codec WireAttachment :=
  .record <| ((Json.Fields.required "attachment_id" AttachmentId.json).append
      ((Json.Fields.required "content_type" .text).append
        ((Json.Fields.required "byte_count" .word64).append
          (.required "digest" (.octets 32))))).imap
    (fun (id, contentType, byteCount, digest) => ⟨id, contentType, byteCount, digest⟩)
    fun a => (a.id, a.contentType, a.byteCount, a.digest)

end WireAttachment

namespace WireQuote

/-- The binary form. -/
def binary : Binary.Codec WireQuote :=
  (Address.binary.pair (Binary.Codec.word64.pair (Binary.Codec.text.option.pair
      (TextRanges.binary.option.pair (WireAttachment.binary.option.pair
        (Binary.Codec.text.option.pair Binary.Codec.text.option)))))).imap
    (fun (author, timestamp, body, ranges, attachment, contentType, sourceFilename) =>
      ⟨author, timestamp, body, ranges, attachment, contentType, sourceFilename⟩)
    fun q => (q.author, q.timestamp, q.body, q.ranges, q.attachment, q.contentType,
      q.sourceFilename)

/-- The JSON form. -/
def json : Json.Codec WireQuote :=
  .record <| ((Json.Fields.required "author" Address.json).append
      ((Json.Fields.required "timestamp" .word64).append
        ((Json.Fields.optional "body" .text).append
          ((Json.Fields.optional "body_ranges" TextRanges.json).append
            ((Json.Fields.optional "attachment" WireAttachment.json).append
              ((Json.Fields.optional "content_type" .text).append
                (.optional "source_filename" .text))))))).imap
    (fun (author, timestamp, body, ranges, attachment, contentType, sourceFilename) =>
      ⟨author, timestamp, body, ranges, attachment, contentType, sourceFilename⟩)
    fun q => (q.author, q.timestamp, q.body, q.ranges, q.attachment, q.contentType,
      q.sourceFilename)

end WireQuote

namespace DataMessage

/-- The binary form. -/
def binary : Binary.Codec DataMessage :=
  (Binary.Codec.word64.pair (Binary.Codec.text.option.pair (TextRanges.binary.option.pair
      (AttachmentId.binary.list.pair (Sticker.binary.option.pair
        (ContactCard.binary.option.pair WireQuote.binary.option)))))).imap
    (fun (timestamp, body, ranges, attachments, sticker, contact, quote) =>
      ⟨timestamp, body, ranges, attachments, sticker, contact, quote⟩)
    fun m => (m.timestamp, m.body, m.ranges, m.attachments, m.sticker, m.contact, m.quote)

/-- The JSON form. -/
def json : Json.Codec DataMessage :=
  .record <| ((Json.Fields.required "timestamp" .word64).append
      ((Json.Fields.optional "body" .text).append
        ((Json.Fields.optional "body_ranges" TextRanges.json).append
          ((Json.Fields.required "attachments" AttachmentId.json.list).append
            ((Json.Fields.optional "sticker" Sticker.json).append
              ((Json.Fields.optional "contact_share" ContactCard.json).append
                (.optional "quote" WireQuote.json))))))).imap
    (fun (timestamp, body, ranges, attachments, sticker, contact, quote) =>
      ⟨timestamp, body, ranges, attachments, sticker, contact, quote⟩)
    fun m => (m.timestamp, m.body, m.ranges, m.attachments, m.sticker, m.contact, m.quote)

end DataMessage

namespace ResendRequest

/-- The binary form. -/
def binary : Binary.Codec ResendRequest :=
  (Binary.Codec.counted.pair (Cipher.binary.pair (Binary.Codec.word64.pair .word32))).imap
    (fun (content, cipher, timestamp, device) => ⟨content, cipher, timestamp, device⟩)
    fun r => (r.content, r.cipher, r.timestamp, r.senderDevice)

/-- The JSON form. -/
def json : Json.Codec ResendRequest :=
  .record <| ((Json.Fields.required "original_content" (.list .byte)).append
      ((Json.Fields.required "cipher_type" Cipher.json).append
        ((Json.Fields.required "original_timestamp" .word64).append
          (.required "original_sender_device" .word32)))).imap
    (fun (content, cipher, timestamp, device) => ⟨content, cipher, timestamp, device⟩)
    fun r => (r.content, r.cipher, r.timestamp, r.senderDevice)

end ResendRequest

namespace Frame

/-- The message of a frame that carries one. -/
def message? : Frame → Option DataMessage
  | data m => some m
  | decryptionError _ => none

/-- The request of a frame that carries one. -/
def request? : Frame → Option ResendRequest
  | data _ => none
  | decryptionError r => some r

/-- The number of a kind of frame in the binary form. -/
def index : Frame → UInt32
  | data _ => 0
  | decryptionError _ => 1

/-- The binary form. -/
def binary : Binary.Codec Frame :=
  .switch index fun i =>
    if i = 0 then some (DataMessage.binary.arm data message?)
    else if i = 1 then some (ResendRequest.binary.arm decryptionError request?)
    else none

/-- The JSON form. -/
def json : Json.Codec Frame :=
  .choice [.holding "Data" DataMessage.json data message?,
    .holding "DecryptionError" ResendRequest.json decryptionError request?]

/-- The bytes that are sent for a frame. -/
def toBytes (f : Frame) : List UInt8 := binary.encode f

/-- The frame at the front of received bytes; what stands behind it is passed over. -/
def ofBytes (bs : List UInt8) : Except Binary.DecodeError Frame := binary.ofBytes bs

end Frame

end Quotation
