import Quotation.Identity

/-!
# Attachments

An attachment is a stream, whose bytes are on this device, or a pointer to bytes that can be
fetched.

* `DownloadState`: how far the fetching of a pointer is;
* `AttachmentStream`, `AttachmentPointer`, `Attachment`.
-/

namespace Quotation

/-- How far the fetching of an attachment is. -/
inductive DownloadState
  | enqueued
  | downloading
  | failed
  | pendingApproval
  deriving DecidableEq, Repr

/-- An attachment whose bytes are in a file of this device. -/
structure AttachmentStream where
  id : AttachmentId
  contentType : String
  sourceFilename : Option String
  byteCount : UInt64
  localPath : String
  digest : Vector UInt8 32
  deriving DecidableEq, Repr

/-- An attachment whose bytes are still elsewhere. -/
structure AttachmentPointer where
  id : AttachmentId
  contentType : String
  sourceFilename : Option String
  byteCount : UInt64
  remoteKey : String
  state : DownloadState
  deriving DecidableEq, Repr

/-- An attachment as this device knows it. -/
inductive Attachment
  | stream (s : AttachmentStream)
  | pointer (p : AttachmentPointer)
  deriving DecidableEq, Repr

namespace DownloadState

/-- The written form. -/
def text : DownloadState → String
  | enqueued => "enqueued"
  | downloading => "downloading"
  | failed => "failed"
  | pendingApproval => "pending_approval"

/-- The state of a written form. -/
def ofText? (s : String) : Option DownloadState :=
  if s = "enqueued" then some enqueued
  else if s = "downloading" then some downloading
  else if s = "failed" then some failed
  else if s = "pending_approval" then some pendingApproval
  else none

theorem ofText?_text (s : DownloadState) : ofText? s.text = some s := by
  cases s <;> decide

/-- The JSON form. -/
def json : Json.Codec DownloadState :=
  .choice [.plain "Enqueued" enqueued, .plain "Downloading" downloading, .plain "Failed" failed,
    .plain "PendingApproval" pendingApproval]

end DownloadState

namespace AttachmentStream

/-- The JSON form. -/
def json : Json.Codec AttachmentStream :=
  .record <| ((Json.Fields.required "id" AttachmentId.json).append
      ((Json.Fields.required "content_type" .text).append
        ((Json.Fields.optional "source_filename" .text).append
          ((Json.Fields.required "byte_count" .word64).append
            ((Json.Fields.required "local_path" .text).append
              (.required "digest" (.octets 32))))))).imap
    (fun (id, contentType, sourceFilename, byteCount, localPath, digest) =>
      ⟨id, contentType, sourceFilename, byteCount, localPath, digest⟩)
    fun s => (s.id, s.contentType, s.sourceFilename, s.byteCount, s.localPath, s.digest)

end AttachmentStream

namespace AttachmentPointer

/-- The JSON form. -/
def json : Json.Codec AttachmentPointer :=
  .record <| ((Json.Fields.required "id" AttachmentId.json).append
      ((Json.Fields.required "content_type" .text).append
        ((Json.Fields.optional "source_filename" .text).append
          ((Json.Fields.required "byte_count" .word64).append
            ((Json.Fields.required "cdn_key" .text).append
              (.required "state" DownloadState.json)))))).imap
    (fun (id, contentType, sourceFilename, byteCount, remoteKey, state) =>
      ⟨id, contentType, sourceFilename, byteCount, remoteKey, state⟩)
    fun p => (p.id, p.contentType, p.sourceFilename, p.byteCount, p.remoteKey, p.state)

end AttachmentPointer

namespace Attachment

/-- The content type of long texts that are sent as a file beside the message. -/
def oversizeText : String := "text/x-signal-plain"

/-- The name. -/
def id : Attachment → AttachmentId
  | stream s => s.id
  | pointer p => p.id

/-- The content type. -/
def contentType : Attachment → String
  | stream s => s.contentType
  | pointer p => p.contentType

/-- The name of the file at the sender. -/
def sourceFilename : Attachment → Option String
  | stream s => s.sourceFilename
  | pointer p => p.sourceFilename

/-- The stream, if the bytes are here. -/
def stream? : Attachment → Option AttachmentStream
  | stream s => some s
  | pointer _ => none

/-- The pointer, if the bytes are elsewhere. -/
def pointer? : Attachment → Option AttachmentPointer
  | stream _ => none
  | pointer p => some p

/-- The JSON form. -/
def json : Json.Codec Attachment :=
  .choice [.holding "Stream" AttachmentStream.json stream stream?,
    .holding "Pointer" AttachmentPointer.json pointer pointer?]

end Attachment

end Quotation
