import Quotation.Proofs.Content.Sticker
import Quotation.Proofs.Instant.Stored
import Quotation.Proofs.Json.Records
import Quotation.Proofs.Uuid
import Quotation.Proofs.Wire.Canonical
import Quotation.Store.Attachments
import Quotation.Store.Messages
import Quotation.Store.Outbox
import Quotation.Store.Stickers

/-!
# Rows are read back

Each kind of value is read from its cell, and from these a record from its row. Messages and
outgoing messages are read provided that the time that the row notes has a year of four digits,
attachments and stickers in any case.

* `Message.reread`, `StoredOutgoing.reread`: what is read where a message was written;
* `messageOfRow_messageCells`, `outgoingOfRow_outgoingShown`;
* `attachmentOfRow_attachmentCells`, `stickerOfRow_stickerCells`.
-/

namespace Quotation

/-- A message with the instant that its time of receipt is taken for. -/
def Message.reread (m : Message) : Message :=
  { m with receivedAt := m.receivedAt.reread }

theorem Message.reread_eq_self_iff {m : Message} : m.reread = m ↔ m.receivedAt.Regular := by
  rw [← Instant.reread_eq_self_iff]
  constructor
  · intro h
    exact congrArg Message.receivedAt h
  · intro h
    rw [reread, h]

theorem Message.reread_of_regular {m : Message} (h : m.receivedAt.Regular) : m.reread = m :=
  reread_eq_self_iff.mpr h

/-- An outgoing message with the instant that the time at which it was added is taken for. -/
def StoredOutgoing.reread (o : StoredOutgoing) : StoredOutgoing :=
  { o with createdAt := o.createdAt.reread }

theorem StoredOutgoing.reread_of_regular {o : StoredOutgoing} (h : o.createdAt.Regular) :
    o.reread = o := by
  rw [reread, Instant.reread_of_regular h]

namespace Store

namespace Fetched

variable {r : Fetched} {i : Nat}

theorem text?_eq {s : Option String} (h : r.cell i = .ofText? s) : r.text? i = .ok s := by
  rw [text?, h]
  cases s <;> rfl

theorem word_eq {n : UInt64} (h : r.cell i = .ofWord n) : r.word i = .ok n := by
  rw [word, integer, h]
  rfl

theorem flag_eq {b : Bool} (h : r.cell i = .ofBool b) : r.flag i = .ok b := by
  rw [flag, integer, h]
  cases b <;> rfl

theorem word32_eq {n : UInt32} (h : r.cell i = numberCell n) : r.word32 i = .ok n := by
  have hn := n.toNat_lt
  have hint : (Int64.ofNat n.toNat).toInt = n.toNat := Int64.toInt_ofNat_of_lt (by omega)
  have hbounds : 0 ≤ (Int64.ofNat n.toNat).toInt ∧ (Int64.ofNat n.toNat).toInt < UInt32.size := by
    rw [hint]
    have hsize : UInt32.size = 4294967296 := rfl
    omega
  rw [word32, integer, h, numberCell, ok_bind, if_pos hbounds, hint, Int.toNat_natCast,
    UInt32.ofNat_toNat]
  rfl

end Fetched

theorem readable_ok {ε α : Type} (column : Nat) (fault : ε → ColumnFault) (a : α) :
    readable column fault (.ok a) = .ok a :=
  rfl

theorem readable?_some {α : Type} (column : Nat) (fault : ColumnFault) (a : α) :
    readable? column fault (some a) = .ok a :=
  rfl

/-- An optional value is read from its text in JSON. -/
theorem ofJsonCell_map_print {α : Type} {c : Json.Codec α} (hc : c.Faithful) (column : Nat)
    (o : Option α) : ofJsonCell c column (o.map c.print) = .ok o := by
  cases o with
  | none => rfl
  | some a =>
    rw [Option.map_some, ofJsonCell, hc.parse_print]
    rfl

/-- From the row of a message everything is read as it was written, if the time of receipt is read
at all. -/
theorem messageOfRow_messageCells_eq (m : Message) :
    messageOfRow ⟨messageColumns, messageCells m⟩ =
      (readable? 15 .date (Instant.read m.receivedAt.stored)).map
        fun t => { m with receivedAt := t } := by
  have hid : Fetched.text ⟨messageColumns, messageCells m⟩ 0 = .ok m.id.uuid.text := rfl
  have hthread : Fetched.text ⟨messageColumns, messageCells m⟩ 1 = .ok m.thread.uuid.text := rfl
  have htimestamp : Fetched.word ⟨messageColumns, messageCells m⟩ 2 = .ok m.timestamp :=
    Fetched.word_eq rfl
  have huuid : Fetched.text ⟨messageColumns, messageCells m⟩ 3 = .ok m.author.uuid.text := rfl
  have hnumber : Fetched.text? ⟨messageColumns, messageCells m⟩ 4 = .ok m.author.e164 :=
    Fetched.text?_eq rfl
  have hdirection : Fetched.text ⟨messageColumns, messageCells m⟩ 5 = .ok m.direction.text := rfl
  have hbody : Fetched.text? ⟨messageColumns, messageCells m⟩ 6 = .ok m.body :=
    Fetched.text?_eq rfl
  have hranges : Fetched.text? ⟨messageColumns, messageCells m⟩ 7 =
      .ok (m.ranges.map TextRanges.json.print) := Fetched.text?_eq rfl
  have hattachments : Fetched.text ⟨messageColumns, messageCells m⟩ 8 =
      .ok (AttachmentId.json.list.print m.attachments) := rfl
  have hsticker : Fetched.text? ⟨messageColumns, messageCells m⟩ 9 =
      .ok (m.sticker.map Sticker.json.print) := Fetched.text?_eq rfl
  have hcontact : Fetched.text? ⟨messageColumns, messageCells m⟩ 10 =
      .ok (m.contact.map ContactCard.json.print) := Fetched.text?_eq rfl
  have honce : Fetched.flag ⟨messageColumns, messageCells m⟩ 11 = .ok m.isViewOnce :=
    Fetched.flag_eq rfl
  have hviewed : Fetched.flag ⟨messageColumns, messageCells m⟩ 12 = .ok m.isViewOnceComplete :=
    Fetched.flag_eq rfl
  have hdeleted : Fetched.flag ⟨messageColumns, messageCells m⟩ 13 = .ok m.wasRemotelyDeleted :=
    Fetched.flag_eq rfl
  have hquoted : Fetched.text? ⟨messageColumns, messageCells m⟩ 14 =
      .ok (m.quoted.map QuoteRecord.json.print) := Fetched.text?_eq rfl
  have hreceived : Fetched.text ⟨messageColumns, messageCells m⟩ 15 = .ok m.receivedAt.stored := rfl
  simp only [messageOfRow, hid, hthread, htimestamp, huuid, hnumber, hdirection, hbody, hranges,
    hattachments, hsticker, hcontact, honce, hviewed, hdeleted, hquoted, hreceived,
    Direction.ofText?_text, AttachmentId.faithful.list.parse_print, Uuid.read_text,
    ofJsonCell_map_print TextRanges.faithful, ofJsonCell_map_print Sticker.faithful,
    ofJsonCell_map_print ContactCard.faithful, ofJsonCell_map_print QuoteRecord.faithful,
    readable_ok, readable?_some, ok_bind]
  cases readable? 15 .date (Instant.read m.receivedAt.stored) with
  | error e => rfl
  | ok t => rfl

/-- A message is read from its row, with the instant that its time of receipt is taken for. -/
theorem messageOfRow_messageCells {m : Message} (h : m.receivedAt.Dated) :
    messageOfRow ⟨messageColumns, messageCells m⟩ = .ok m.reread := by
  rw [messageOfRow_messageCells_eq, Instant.read_stored h, readable?_some]
  rfl

/-- A message whose time of receipt has another year is not read from its row. -/
theorem messageOfRow_messageCells_of_not_dated {m : Message} (h : ¬m.receivedAt.Dated) :
    messageOfRow ⟨messageColumns, messageCells m⟩ = .error (.unreadable 15 .date) := by
  rw [messageOfRow_messageCells_eq, Instant.read_stored_of_not_dated h]
  rfl

/-- The cells of an outgoing message, in the order of the columns of its table. -/
def outgoingCells (o : StoredOutgoing) : List Cell :=
  [.text o.id.text, .text o.message.thread.text, .ofWord o.message.timestamp,
    .blob (OutgoingMessage.binary.encode o.message), .text o.createdAt.stored]

/-- The cells of an outgoing message that lookups return. -/
def outgoingShown (o : StoredOutgoing) : List Cell :=
  [.text o.id.text, .blob (OutgoingMessage.binary.encode o.message), .text o.createdAt.stored]

/-- An outgoing message is read from its row, with the instant that its time is taken for. -/
theorem outgoingOfRow_outgoingShown {o : StoredOutgoing} (hsized : o.message.Sized)
    (hdated : o.createdAt.Dated) :
    outgoingOfRow ⟨outgoingColumns, outgoingShown o⟩ = .ok o.reread := by
  have hid : Fetched.text ⟨outgoingColumns, outgoingShown o⟩ 0 = .ok o.id.uuid.text := rfl
  have hpayload : Fetched.blob ⟨outgoingColumns, outgoingShown o⟩ 1 =
      .ok (OutgoingMessage.binary.encode o.message) := rfl
  have hcreated : Fetched.text ⟨outgoingColumns, outgoingShown o⟩ 2 = .ok o.createdAt.stored := rfl
  have hread := OutgoingMessage.canonical.ofBytes_encode (OutgoingMessage.fits_iff.mpr hsized)
  simp only [outgoingOfRow, hid, hpayload, hcreated, hread, Uuid.read_text,
    Instant.read_stored hdated, readable_ok, readable?_some, ok_bind]
  rfl

/-- An attachment is read from its row. -/
theorem attachmentOfRow_attachmentCells (a : Attachment) :
    attachmentOfRow ⟨attachmentColumns, attachmentCells a⟩ = .ok a := by
  cases a with
  | stream s =>
    have hid : Fetched.text ⟨attachmentColumns, attachmentCells (.stream s)⟩ 0 =
        .ok s.id.uuid.text := rfl
    have htype : Fetched.text ⟨attachmentColumns, attachmentCells (.stream s)⟩ 1 =
        .ok s.contentType := rfl
    have hfilename : Fetched.text? ⟨attachmentColumns, attachmentCells (.stream s)⟩ 2 =
        .ok s.sourceFilename := Fetched.text?_eq rfl
    have hcount : Fetched.word ⟨attachmentColumns, attachmentCells (.stream s)⟩ 3 =
        .ok s.byteCount := Fetched.word_eq rfl
    have hpath : Fetched.text? ⟨attachmentColumns, attachmentCells (.stream s)⟩ 4 =
        .ok (some s.localPath) := rfl
    have hdigest : Fetched.text? ⟨attachmentColumns, attachmentCells (.stream s)⟩ 5 =
        .ok (some (Text.Hex.encode s.digest.toList)) := rfl
    have hkey : Fetched.text? ⟨attachmentColumns, attachmentCells (.stream s)⟩ 6 = .ok none := rfl
    have hstate : Fetched.text? ⟨attachmentColumns, attachmentCells (.stream s)⟩ 7 = .ok none := rfl
    simp only [attachmentOfRow, hid, htype, hfilename, hcount, hpath, hdigest, hkey, hstate,
      Uuid.read_text, Option.getD_some, Text.Hex.decode_encode, readable_ok, ok_bind,
      dif_pos (size_toArray_toList s.digest), vector_mk_toArray_toList]
    rfl
  | pointer p =>
    have hid : Fetched.text ⟨attachmentColumns, attachmentCells (.pointer p)⟩ 0 =
        .ok p.id.uuid.text := rfl
    have htype : Fetched.text ⟨attachmentColumns, attachmentCells (.pointer p)⟩ 1 =
        .ok p.contentType := rfl
    have hfilename : Fetched.text? ⟨attachmentColumns, attachmentCells (.pointer p)⟩ 2 =
        .ok p.sourceFilename := Fetched.text?_eq rfl
    have hcount : Fetched.word ⟨attachmentColumns, attachmentCells (.pointer p)⟩ 3 =
        .ok p.byteCount := Fetched.word_eq rfl
    have hpath : Fetched.text? ⟨attachmentColumns, attachmentCells (.pointer p)⟩ 4 = .ok none := rfl
    have hdigest : Fetched.text? ⟨attachmentColumns, attachmentCells (.pointer p)⟩ 5 =
        .ok none := rfl
    have hkey : Fetched.text? ⟨attachmentColumns, attachmentCells (.pointer p)⟩ 6 =
        .ok (some p.remoteKey) := rfl
    have hstate : Fetched.text? ⟨attachmentColumns, attachmentCells (.pointer p)⟩ 7 =
        .ok (some p.state.text) := rfl
    simp only [attachmentOfRow, hid, htype, hfilename, hcount, hpath, hdigest, hkey, hstate,
      Uuid.read_text, Option.bind_some, DownloadState.ofText?_text, Option.getD_some, readable_ok,
      readable?_some, ok_bind]
    rfl

/-- An installed sticker is read from its row. -/
theorem stickerOfRow_stickerCells (s : InstalledSticker) :
    stickerOfRow ⟨stickerColumns, stickerCells s⟩ = .ok s := by
  have hpack : Fetched.text ⟨stickerColumns, stickerCells s⟩ 0 = .ok s.info.packIdHex := rfl
  have hkey : Fetched.text ⟨stickerColumns, stickerCells s⟩ 1 = .ok s.info.packKeyHex := rfl
  have hnumber : Fetched.word32 ⟨stickerColumns, stickerCells s⟩ 2 = .ok s.info.number :=
    Fetched.word32_eq rfl
  have htype : Fetched.text ⟨stickerColumns, stickerCells s⟩ 3 = .ok s.contentType := rfl
  have hemoji : Fetched.text? ⟨stickerColumns, stickerCells s⟩ 4 = .ok s.emoji :=
    Fetched.text?_eq rfl
  have hpath : Fetched.text ⟨stickerColumns, stickerCells s⟩ 5 = .ok s.localPath := rfl
  simp only [stickerOfRow, hpack, hkey, hnumber, htype, hemoji, hpath,
    StickerRef.ofHex_packIdHex_packKeyHex, readable_ok, ok_bind]
  rfl

end Store

end Quotation
