import Quotation.Quote.Lookup

/-!
# What is known of an attachment

* `Resolved`: the bytes are here, fetching them has failed, or they are not here;
* `Resolved.ofId`, `Resolved.ofId?`.
-/

namespace Quotation

/-- What this device has of an attachment. -/
inductive Resolved
  /-- The bytes are in a file. -/
  | stream (s : AttachmentStream)
  /-- Fetching them has failed; it can be tried again. -/
  | failed (p : AttachmentPointer)
  /-- They are not here; if they are to be fetched, that pointer is known. -/
  | missing (pending : Option AttachmentPointer)
  deriving DecidableEq, Repr

namespace Resolved

/-- The content type, as far as it is known. -/
def contentType : Resolved → Option String
  | stream s => some s.contentType
  | failed p => some p.contentType
  | missing pending => pending.map (·.contentType)

/-- The name of the file at the sender, as far as it is known. -/
def sourceFilename : Resolved → Option String
  | stream s => s.sourceFilename
  | failed p => p.sourceFilename
  | missing pending => pending.bind (·.sourceFilename)

/-- What a record says. -/
def ofRecord? : Option Attachment → Resolved
  | none => missing none
  | some (.stream s) => stream s
  | some (.pointer p) => if p.state = .failed then failed p else missing (some p)

/-- What is known of the attachment of a name. -/
def ofId (look : Lookup) (id : AttachmentId) : Except QuoteError Resolved :=
  ((look.attachment id).map ofRecord?).mapError .store

/-- The same where there may be no name. -/
def ofId? (look : Lookup) : Option AttachmentId → Except QuoteError Resolved
  | some id => ofId look id
  | none => .ok (missing none)

end Resolved

end Quotation
