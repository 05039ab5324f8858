import Quotation.Attachment
import Quotation.Digest
import Quotation.Files.Path
import Quotation.Instant.Text
import Quotation.Store.Layout

/-!
# The table of attachments

A stream and a pointer share one row: it is a stream exactly if it has a local path.

* `Database.insertAttachment`, `Database.setDownloadState`, `Database.completeDownload`;
* `Database.attachment?`: the attachment of a name;
* `AttachmentStream.ofBytes`: the description of a file of known bytes.
-/

namespace Quotation

/-- The description of a file on this device that holds the given bytes. -/
def AttachmentStream.ofBytes (id : AttachmentId) (contentType : String)
    (sourceFilename : Option String) (localPath : RawPath) (bytes : List UInt8) :
    AttachmentStream where
  id := id
  contentType := contentType
  sourceFilename := sourceFilename
  byteCount := UInt64.ofNat bytes.length
  localPath := localPath.text
  digest := Digest.hash bytes

namespace Store

/-- A digest in hexadecimal digits. -/
def digestHex (digest : Vector UInt8 32) : String :=
  Text.Hex.encode digest.toList

/-- The columns of an attachment that lookups return. -/
def attachmentColumns : List String :=
  ["id", "content_type", "source_filename", "byte_count", "local_path", "digest", "cdn_key",
    "pointer_state"]

/-- An attachment as the values of a row. -/
def attachmentCells : Attachment → List Cell
  | .stream s => [.text s.id.text, .text s.contentType, .ofText? s.sourceFilename,
      .ofWord s.byteCount, .text s.localPath, .text (digestHex s.digest), .null, .null]
  | .pointer p => [.text p.id.text, .text p.contentType, .ofText? p.sourceFilename,
      .ofWord p.byteCount, .null, .null, .text p.remoteKey, .text p.state.text]

/-- The attachment that a row holds. -/
def attachmentOfRow (r : Fetched) : Except ColumnError Attachment := do
  let id ← r.text 0
  let contentType ← r.text 1
  let sourceFilename ← r.text? 2
  let byteCount ← r.word 3
  let localPath ← r.text? 4
  let digest ← r.text? 5
  let remoteKey ← r.text? 6
  let state ← r.text? 7
  let id ← readable 0 .uuid (Uuid.read id)
  match localPath with
  | some localPath =>
    let bytes ← readable 5 .hex (Text.Hex.decode (digest.getD ""))
    if h : bytes.toArray.size = 32 then
      return .stream ⟨⟨id⟩, contentType, sourceFilename, byteCount, localPath, ⟨bytes.toArray, h⟩⟩
    else throw (.unreadable 5 .digestLength)
  | none =>
    let state ← readable? 7 .unknownState (state.bind DownloadState.ofText?)
    return .pointer ⟨⟨id⟩, contentType, sourceFilename, byteCount, remoteKey.getD "", state⟩

namespace Database

/-- Adds an attachment whose name is new; `now` is the time at which that is done. -/
def insertAttachment (db : Database) (a : Attachment) (now : Instant) :
    Except StoreError Database :=
  (db.insert "attachments" ((attachmentColumns ++ ["created_at"]).zip
    (attachmentCells a ++ [.text now.stored]))).mapError .statement

/-- Notes how far the fetching of a pointer is. Says whether the name is that of a pointer. -/
def setDownloadState (db : Database) (id : AttachmentId) (state : DownloadState) :
    Except StoreError (Database × Bool) :=
  ((db.update "attachments" [("pointer_state", .text state.text)]
    [.equals "id" (.text id.text), .isNull "local_path"]).map fun (db, n) =>
      (db, 0 < n)).mapError .statement

/-- Turns an attachment into a stream once its bytes are in a file; `contents` is what reading the
file gives. The path is kept as a text. -/
def completeDownload (db : Database) (id : AttachmentId) (localPath : RawPath)
    (contents : Except FileError (List UInt8)) : Except StoreError Database := do
  let bytes ← contents.mapError .file
  let (db, n) ← (db.update "attachments" [("local_path", .text localPath.text),
    ("digest", .text (digestHex (Digest.hash bytes))),
    ("byte_count", .ofWord (UInt64.ofNat bytes.length)), ("pointer_state", .null),
    ("cdn_key", .null)] [.equals "id" (.text id.text)]).mapError .statement
  if n = 0 then throw .notFound
  return db

/-- The attachment of a name. -/
def attachment? (db : Database) (id : AttachmentId) : Except StoreError (Option Attachment) := do
  match ← (db.select "attachments" attachmentColumns [.equals "id" (.text id.text)]).mapError
    .statement with
  | [] => return none
  | r :: _ => return some (← (attachmentOfRow ⟨attachmentColumns, r⟩).mapError .column)

end Database

end Store

end Quotation
