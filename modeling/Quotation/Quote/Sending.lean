import Quotation.Outgoing
import Quotation.Quote.Snapshot

/-!
# Sending a quote

* `Snapshot.wire`: the quote as it is sent; text and captions go verbatim, so that ranges keep
  pointing at the same characters;
* `Snapshot.reply`: a text message that carries it.
-/

namespace Quotation.Snapshot

/-- An attachment as another device can fetch it. -/
def wireAttachment (s : AttachmentStream) : WireAttachment :=
  ⟨s.id, s.contentType, s.byteCount, s.digest⟩

/-- The quote as it is sent. An attachment is referred to only if this device has its bytes; of a
sticker only the type and the name of the picture are sent, of a contact and of content that is gone
nothing. -/
def wire (s : Snapshot) : WireQuote :=
  match s.content with
  | .text body ranges => { author := s.author, timestamp := s.timestamp, body := some body, ranges }
  | .attachment caption ranges a =>
    { author := s.author
      timestamp := s.timestamp
      body := caption
      ranges
      attachment := a.stream?.map wireAttachment
      contentType := a.contentType
      sourceFilename := a.sourceFilename }
  | .sticker _ a =>
    { author := s.author
      timestamp := s.timestamp
      contentType := a.contentType
      sourceFilename := a.sourceFilename }
  | .contactShare _ => { author := s.author, timestamp := s.timestamp }
  | .remotelyDeleted => { author := s.author, timestamp := s.timestamp }
  | .viewOnceExpired => { author := s.author, timestamp := s.timestamp }

/-- A text message that quotes. -/
def reply (s : Snapshot) (thread : ThreadId) (timestamp : UInt64) (body : String) :
    OutgoingMessage :=
  { thread, timestamp, body := some body, quote := some s.wire }

end Quotation.Snapshot
