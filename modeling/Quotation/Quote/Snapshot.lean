import Quotation.Config
import Quotation.Quote.Resolved
import Quotation.Quote.Source

/-!
# Snapshots

A quote is frozen when it is made: whatever happens later to the quoted message or its attachments,
the snapshot stays as it is.

* `QuotedAttachment`, `Content`, `Snapshot`, and what can be asked of a snapshot;
* `Snapshot.build`: freezes what a quote shows;
* `Snapshot.ofItem`, `Snapshot.ofMessage`, `Snapshot.ofRecord`: the quotes of an item, of a kept
  message, and of a message that a record refers to.
-/

namespace Quotation

/-- What this device has of a quoted attachment. -/
inductive HeldState
  | stream (s : AttachmentStream)
  /-- Fetching it has failed. -/
  | failedThumbnail (p : AttachmentPointer)
  | unavailable
  deriving DecidableEq, Repr

/-- A quoted attachment, described even if it is not held. -/
structure QuotedAttachment where
  contentType : Option String
  sourceFilename : Option String
  state : HeldState
  deriving DecidableEq, Repr

/-- The content of a quote, by its kind. -/
inductive Content
  | text (body : String) (ranges : Option TextRanges)
  | attachment (caption : Option String) (ranges : Option TextRanges)
      (attachment : QuotedAttachment)
  | sticker (info : StickerRef) (attachment : QuotedAttachment)
  | contactShare (displayName : String)
  | remotelyDeleted
  | viewOnceExpired
  deriving DecidableEq, Repr

/-- A frozen quote. It is remotely sourced if its content comes from the quote of another device and
not from a message that this device has. -/
structure Snapshot where
  timestamp : UInt64
  author : Address
  isRemotelySourced : Bool
  content : Content
  deriving DecidableEq, Repr

namespace Content

/-- The kind of quote. -/
def shape : Content → Shape
  | text _ _ => .plainText
  | attachment _ _ _ => .attachmentWithCaption
  | sticker _ _ => .sticker
  | contactShare _ => .contactShare
  | remotelyDeleted => .remotelyDeleted
  | viewOnceExpired => .viewOnceExpired

/-- The attachment of a quote that has one. -/
def attachment? : Content → Option QuotedAttachment
  | attachment _ _ a => some a
  | sticker _ a => some a
  | _ => none

end Content

namespace QuotedAttachment

/-- The stream, if the bytes are here. -/
def stream? (a : QuotedAttachment) : Option AttachmentStream :=
  match a.state with
  | .stream s => some s
  | _ => none

/-- The pointer, if fetching has failed. -/
def failed? (a : QuotedAttachment) : Option AttachmentPointer :=
  match a.state with
  | .failedThumbnail p => some p
  | _ => none

/-- What is known of an attachment, with what a record says where nothing is known. -/
def ofResolved (r : Resolved) (contentType sourceFilename : Option String) : QuotedAttachment where
  contentType := r.contentType.or contentType
  sourceFilename := r.sourceFilename.or sourceFilename
  state := match r with
    | .stream s => .stream s
    | .failed p => .failedThumbnail p
    | .missing _ => .unavailable

end QuotedAttachment

namespace Snapshot

/-- The kind of quote. -/
def shape (s : Snapshot) : Shape := s.content.shape

/-- The quoted text, or the caption of a quoted attachment. -/
def body (s : Snapshot) : Option String :=
  match s.content with
  | .text body _ => some body
  | .attachment caption _ _ => caption
  | _ => none

/-- The ranges of the text or caption. -/
def ranges (s : Snapshot) : Option TextRanges :=
  match s.content with
  | .text _ ranges => ranges
  | .attachment _ ranges _ => ranges
  | _ => none

/-- The content type of the quoted attachment or sticker. -/
def contentType (s : Snapshot) : Option String :=
  s.content.attachment?.bind (·.contentType)

/-- The name of the file of the quoted attachment or sticker. -/
def sourceFilename (s : Snapshot) : Option String :=
  s.content.attachment?.bind (·.sourceFilename)

/-- The stream of the quoted attachment or sticker, if this device has it. -/
def stream? (s : Snapshot) : Option AttachmentStream :=
  s.content.attachment?.bind (·.stream?)

/-- The pointer of the quoted attachment or sticker, if fetching it has failed. -/
def failedPointer? (s : Snapshot) : Option AttachmentPointer :=
  s.content.attachment?.bind (·.failed?)

/-- The quoted sticker. -/
def sticker? (s : Snapshot) : Option StickerRef :=
  match s.content with
  | .sticker info _ => some info
  | _ => none

/-- The name on the quoted contact card. -/
def contactName? (s : Snapshot) : Option String :=
  match s.content with
  | .contactShare name => some name
  | _ => none

/-- The attachment of a sticker. Its content type is that of its record, or that of the installed
sticker, or the one that is taken for granted. -/
def stickerAttachment (look : Lookup) (info : StickerRef) (r : Resolved) :
    Except QuoteError QuotedAttachment :=
  let a := QuotedAttachment.ofResolved r none none
  match a.contentType with
  | some _ => .ok a
  | none => ((look.sticker info).mapError .store).map fun installed =>
      let found := (installed.map (·.contentType)).getD InstalledSticker.defaultContentType
      { a with contentType := some found }

/-- The content of a quote that shows a given part of a message. -/
def contentOf (look : Lookup) : Source → Except QuoteError Content
  | .plainText body ranges =>
    if Text.IsBlankText body then .error .emptySource else .ok (.text body ranges)
  | .attachmentWithCaption id caption ranges contentType sourceFilename =>
    (Resolved.ofId? look id).map fun r =>
      .attachment caption ranges (.ofResolved r contentType sourceFilename)
  | .sticker info id =>
    ((Resolved.ofId? look id).bind (stickerAttachment look info)).map (.sticker info)
  | .contactShare name => .ok (.contactShare name)
  | .remotelyDeleted => .ok .remotelyDeleted
  | .viewOnceExpired => .ok .viewOnceExpired

/-- Freezes a quote. -/
def build (look : Lookup) (timestamp : UInt64) (author : Address) (isRemotelySourced : Bool)
    (source : Source) : Except QuoteError Snapshot :=
  (contentOf look source).map fun content => ⟨timestamp, author, isRemotelySourced, content⟩

/-- The quote of an item. -/
def ofItem (look : Lookup) (i : Item) : Except QuoteError Snapshot :=
  (Source.ofItem look i).bind (build look i.timestamp i.author false)

/-- The quote of a kept message. -/
def ofMessage (look : Lookup) (id : MessageId) : Except QuoteError Snapshot :=
  match look.message id with
  | .error e => .error (.store e)
  | .ok none => .error (.messageNotFound id)
  | .ok (some m) => ofItem look m.item

/-- The quote that a record refers to: of the message itself if this device has it, and else of what
the record says. The latter is remotely sourced unless the message is our own. -/
def ofRecord (config : Config) (look : Lookup) (r : QuoteRecord) : Except QuoteError Snapshot :=
  match look.messageAt r.timestamp r.author with
  | .error e => .error (.store e)
  | .ok (some m) => ofItem look m.item
  | .ok none =>
    (Source.ofRecord r).bind (build look r.timestamp r.author (!config.isLocal r.author))

end Snapshot

end Quotation
