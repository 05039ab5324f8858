import Quotation.Message
import Quotation.Store.Attachments
import Quotation.Store.Messages
import Quotation.Store.Stickers

/-!
# Lookups

All that quoting reads: four questions about messages, attachments and stickers, each of which may
fail.

* `Lookup`, with `Database.lookup` for a database;
* `Item`: what can be quoted, a message that is kept or one that is being written;
* `QuoteError`: why there is no quote.
-/

namespace Quotation

/-- What is wrong with an envelope whose content is to be asked for again. -/
inductive EnvelopeFault
  | noContent
  | noDevice (source : Address)
  deriving DecidableEq, Repr

/-- Why a quote or a resend request cannot be made. -/
inductive QuoteError
  /-- There is nothing to show. -/
  | emptySource
  | messageNotFound (id : MessageId)
  | envelope (fault : EnvelopeFault)
  | store (e : Store.StoreError)
  deriving DecidableEq, Repr

/-- The sentence that names a fault. -/
def EnvelopeFault.message : EnvelopeFault → String
  | noContent => "envelope content is empty"
  | noDevice source => "envelope from " ++ source.text ++ " has no sender device"

/-- The sentences that name an error and what is behind it. -/
def QuoteError.messages : QuoteError → List String
  | emptySource => ["Quoted message has no quotable content"]
  | messageNotFound id => ["Message not found: " ++ id.text]
  | envelope fault => ["Invalid envelope: " ++ fault.message]
  | store e => ("Store error: " ++ e.message) :: e.messages

/-- The sentence that names an error. -/
def QuoteError.message (e : QuoteError) : String :=
  e.messages.headD ""

/-- The questions that quoting asks. -/
structure Lookup where
  message : MessageId → Except Store.StoreError (Option Message)
  messageAt : UInt64 → Address → Except Store.StoreError (Option Message)
  attachment : AttachmentId → Except Store.StoreError (Option Attachment)
  sticker : StickerRef → Except Store.StoreError (Option InstalledSticker)

/-- The answers of a database. -/
def Store.Database.lookup (db : Store.Database) : Lookup where
  message := db.message?
  messageAt := db.messageAt?
  attachment := db.attachment?
  sticker := db.sticker?

/-- What can be quoted. -/
structure Item where
  timestamp : UInt64
  author : Address
  body : Option String := none
  ranges : Option TextRanges := none
  attachments : List AttachmentId := []
  sticker : Option Sticker := none
  contact : Option ContactCard := none
  wasRemotelyDeleted : Bool := false
  isViewOnce : Bool := false
  isViewOnceComplete : Bool := false
  deriving DecidableEq, Repr

/-- A message that is kept, as something to quote. -/
def Message.item (m : Message) : Item where
  timestamp := m.timestamp
  author := m.author
  body := m.body
  ranges := m.ranges
  attachments := m.attachments
  sticker := m.sticker
  contact := m.contact
  wasRemotelyDeleted := m.wasRemotelyDeleted
  isViewOnce := m.isViewOnce
  isViewOnceComplete := m.isViewOnceComplete

/-- Whether an item is a view-once message that has been viewed. -/
def Item.isExpired (i : Item) : Bool := i.isViewOnce && i.isViewOnceComplete

end Quotation
