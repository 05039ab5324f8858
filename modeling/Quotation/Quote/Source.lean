import Quotation.Quote.Lookup

/-!
# What a quote shows

Before a quote is made, it is decided which part of the quoted message it shows. A message that was
deleted or has expired shows nothing of its content; a sticker comes before a contact, a contact
before an attachment, an attachment before text.

* `Shape`, `Source`;
* `Source.ofItem`: the decision for a message that can be looked into;
* `Source.ofRecord`: the decision for a quote of which only the record is known.
-/

namespace Quotation

/-- The six kinds of quotes. -/
inductive Shape
  | plainText
  | attachmentWithCaption
  | sticker
  | contactShare
  | remotelyDeleted
  | viewOnceExpired
  deriving DecidableEq, Repr

/-- The name of a kind. -/
def Shape.text : Shape → String
  | plainText => "plain_text"
  | attachmentWithCaption => "attachment_with_caption"
  | sticker => "sticker"
  | contactShare => "contact_share"
  | remotelyDeleted => "remotely_deleted"
  | viewOnceExpired => "view_once_expired"

/-- The part of a message that a quote shows. Content type and name of an attachment are given where
only a record is known. -/
inductive Source
  | plainText (body : String) (ranges : Option TextRanges)
  | attachmentWithCaption (attachment : Option AttachmentId) (caption : Option String)
      (ranges : Option TextRanges) (contentType sourceFilename : Option String)
  | sticker (info : StickerRef) (attachment : Option AttachmentId)
  | contactShare (displayName : String)
  | remotelyDeleted
  | viewOnceExpired
  deriving DecidableEq, Repr

namespace Source

/-- The kind of quote. -/
def shape : Source → Shape
  | plainText _ _ => .plainText
  | attachmentWithCaption _ _ _ _ _ => .attachmentWithCaption
  | sticker _ _ => .sticker
  | contactShare _ => .contactShare
  | remotelyDeleted => .remotelyDeleted
  | viewOnceExpired => .viewOnceExpired

/-- A text that holds something else than blanks. -/
def nonBlank? (body : Option String) : Option String :=
  body.filter fun s => !decide (Text.IsBlankText s)

/-- Ranges of which there is at least one. -/
def someRanges? (ranges : Option TextRanges) : Option TextRanges :=
  ranges.filter fun r => !r.isEmpty

/-- A text with its ranges, both verbatim; a blank text shows nothing. -/
def ofText (body : Option String) (ranges : Option TextRanges) : Except QuoteError Source :=
  match nonBlank? body with
  | some s => .ok (.plainText s (someRanges? ranges))
  | none => .error .emptySource

/-- An attachment with the body as its caption; ranges go with a caption only. -/
def captioned (attachment : Option AttachmentId) (body : Option String)
    (ranges : Option TextRanges) (contentType sourceFilename : Option String) : Source :=
  match nonBlank? body with
  | some s => .attachmentWithCaption attachment (some s) (someRanges? ranges) contentType
      sourceFilename
  | none => .attachmentWithCaption attachment none none contentType sourceFilename

/-- The first attachment that is not the rest of a long text. One that is not known is shown. -/
def primaryAttachment (look : Lookup) : List AttachmentId →
    Except Store.StoreError (Option AttachmentId)
  | [] => .ok none
  | id :: ids => do
    match ← look.attachment id with
    | some a =>
      if a.contentType = Attachment.oversizeText then primaryAttachment look ids
      else return some id
    | none => return some id

/-- What a quote of an item shows. -/
def ofItem (look : Lookup) (i : Item) : Except QuoteError Source :=
  if i.wasRemotelyDeleted then .ok .remotelyDeleted
  else if i.isExpired then .ok .viewOnceExpired
  else match i.sticker with
    | some s => .ok (.sticker s.info (some s.attachment))
    | none => match i.contact with
      | some c => .ok (.contactShare (Text.trim c.displayName))
      | none =>
        match primaryAttachment look i.attachments with
        | .error e => .error (.store e)
        | .ok (some id) => .ok (captioned (some id) i.body i.ranges none none)
        | .ok none => ofText i.body i.ranges

/-- What a quote shows of which only the record is known: an attachment if it names one or a content
type, and else text. -/
def ofRecord (r : QuoteRecord) : Except QuoteError Source :=
  if r.thumbnail.isSome || r.contentType.isSome then
    .ok (captioned r.thumbnail r.body r.ranges r.contentType r.sourceFilename)
  else ofText r.body r.ranges

end Source

end Quotation
