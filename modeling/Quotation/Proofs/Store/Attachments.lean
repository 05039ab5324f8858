import Quotation.Proofs.Store.Contents

/-!
# Attachments and stickers as records

The operations on the tables of attachments and of stickers and the lookups in them, in terms of the
lists of them.

* `Attachment.withState`, `Attachment.fetched`: what becomes of an attachment;
* `insertAttachment_eq`, `setDownloadState_eq`, `completeDownload_eq`, `attachment?_eq`;
* `installSticker_eq`, `sticker?_eq`.
-/

namespace Quotation

namespace Attachment

/-- A pointer of which it is noted how far its fetching is. A stream stays as it is. -/
def withState (state : DownloadState) : Attachment → Attachment
  | stream s => stream s
  | pointer p => pointer { p with state }

/-- An attachment whose bytes have come to be in a file. -/
def fetched (localPath : RawPath) (bytes : List UInt8) (a : Attachment) : Attachment :=
  stream (.ofBytes a.id a.contentType a.sourceFilename localPath bytes)

end Attachment

/-- Whether two stickers have the same number in the same pack. -/
def InstalledSticker.samePlace (s t : InstalledSticker) : Bool :=
  s.info.packId == t.info.packId && s.info.number == t.info.number

namespace Store

theorem numberCell_inj {m n : UInt32} : numberCell m = numberCell n ↔ m = n := by
  constructor
  · intro h
    have hint : (Int64.ofNat m.toNat).toInt = (Int64.ofNat n.toNat).toInt :=
      congrArg Int64.toInt (Cell.integer.inj h)
    have hm := m.toNat_lt
    have hn := n.toNat_lt
    rw [Int64.toInt_ofNat_of_lt (by omega), Int64.toInt_ofNat_of_lt (by omega)] at hint
    exact UInt32.toNat_inj.mp (Int.ofNat.inj hint)
  · rintro rfl
    rfl

namespace Contents

variable (c : Contents)

theorem table_attachments :
    c.database.table "attachments" =
      .ok (Layout.attachments.holding datedAttachmentCells c.attachments) := by
  rfl

theorem text_id_mem (p : Attachment × Instant) :
    Row.cell (datedAttachmentCells p) 0 = .text p.1.id.text := by
  rcases p with ⟨s | p, now⟩ <;> rfl

theorem satisfies_attachmentId (id : AttachmentId) (p : Attachment × Instant) :
    Table.satisfies [(0, .equals "id" (.text id.text))] (datedAttachmentCells p) =
      (p.1.id == id) := by
  rw [Bool.eq_iff_iff, beq_iff_eq, ← AttachmentId.text_inj]
  simp [Table.satisfies, Condition.holds, Cell.equals, Cell.kind, text_id_mem]

theorem insertAttachment_eq (a : Attachment) (now : Instant) :
    c.database.insertAttachment a now =
      if c.attachments.any (·.1.id == a.id) then
        .error (.statement (.duplicateKey "attachments" ["id"]))
      else .ok { c with attachments := c.attachments ++ [(a, now)] }.database := by
  have hsame : ∀ p q : Attachment × Instant, (Layout.attachments.keyOf (datedAttachmentCells p) ==
      Layout.attachments.keyOf (datedAttachmentCells q)) = (p.1.id == q.1.id) := by
    intro p q
    have hkey : ∀ r : Row, Layout.attachments.keyOf r = [r.cell 0] := fun _ => rfl
    rw [hkey, hkey, text_id_mem, text_id_mem, Bool.eq_iff_iff, beq_iff_eq, beq_iff_eq,
      ← AttachmentId.text_inj]
    exact ⟨fun h => Cell.text.inj (List.cons.inj h).1, fun h => congrArg (fun s => [Cell.text s]) h⟩
  have hinsert := Table.insert_holding (by decide) admits_datedAttachmentCells hsame c.attachments
    (a, now)
  have hnames : Layout.attachments.names = attachmentColumns ++ ["created_at"] := by rfl
  rw [hnames] at hinsert
  simp only [Database.insertAttachment, Database.insert, table_attachments, bind, Except.bind]
  rw [show attachmentCells a ++ [Cell.text now.stored] = datedAttachmentCells (a, now) from rfl,
    hinsert]
  cases c.attachments.any (·.1.id == a.id) with
  | true => rfl
  | false => rfl

/-- The contents with a change to some attachments. -/
def changeAttachments (chosen : Attachment → Bool) (change : Attachment → Attachment) : Contents :=
  { c with attachments := c.attachments.map fun p : Attachment × Instant =>
      if chosen p.1 then (change p.1, p.2) else p }

theorem update_attachments_eq (chosen : Attachment → Bool) (change : Attachment → Attachment)
    {sets : List (String × Cell)} {places : List (Nat × Cell)}
    (hsets : sets.mapM Layout.attachments.place = .ok places)
    (hkey : places.any (fun (i, _) => Layout.attachments.key.contains i) = false)
    {conditions : List Condition} {located : List (Nat × Condition)}
    (hlocated : conditions.mapM Layout.attachments.locate = .ok located)
    (hchosen : ∀ p, Table.satisfies located (datedAttachmentCells p) = chosen p.1)
    (hchange : ∀ p : Attachment × Instant, chosen p.1 = true →
      Table.assign places (datedAttachmentCells p) = datedAttachmentCells (change p.1, p.2)) :
    c.database.update "attachments" sets conditions =
      .ok ((c.changeAttachments chosen change).database,
        (c.attachments.filter fun p => chosen p.1).length) := by
  have hupdate := Table.update_holding hsets hlocated hkey hchosen hchange
    admits_datedAttachmentCells c.attachments
  simp only [Database.update, table_attachments, bind, Except.bind, hupdate]
  rfl

/-- Whether an attachment is a pointer of a name. -/
def isPointerOf (id : AttachmentId) (a : Attachment) : Bool :=
  a.id == id && a.pointer?.isSome

theorem setDownloadState_eq (id : AttachmentId) (state : DownloadState) :
    c.database.setDownloadState id state =
      .ok ((c.changeAttachments (isPointerOf id) (.withState state)).database,
        c.attachments.any fun p => isPointerOf id p.1) := by
  have hlocated : [Condition.equals "id" (.text id.text), .isNull "local_path"].mapM
      Layout.attachments.locate =
      .ok [(0, .equals "id" (.text id.text)), (4, .isNull "local_path")] := by
    rfl
  have hchosen : ∀ p : Attachment × Instant, Table.satisfies [(0, .equals "id" (.text id.text)),
      (4, .isNull "local_path")] (datedAttachmentCells p) = isPointerOf id p.1 := by
    intro p
    have hid : (Cell.text p.1.id.text).equals (.text id.text) = (p.1.id == id) := by
      rw [Bool.eq_iff_iff, beq_iff_eq, ← AttachmentId.text_inj]
      simp [Cell.equals, Cell.kind]
    simp only [Table.satisfies, List.all_cons, List.all_nil, Condition.holds, text_id_mem, hid,
      Bool.and_true, isPointerOf]
    rcases p with ⟨s | p, now⟩ <;> rfl
  have hchange : ∀ p : Attachment × Instant, isPointerOf id p.1 = true →
      Table.assign [(7, .text state.text)] (datedAttachmentCells p) =
        datedAttachmentCells (p.1.withState state, p.2) := by
    intro p hp
    rcases p with ⟨s | p, now⟩
    · simp [isPointerOf, Attachment.pointer?] at hp
    · rfl
  rw [Database.setDownloadState,
    c.update_attachments_eq (isPointerOf id) (.withState state) (by rfl) (by rfl) hlocated hchosen
      hchange]
  simp only [Except.map, mapError_ok, decide_length_filter_pos]

/-- The values that are set when a download is completed. -/
def downloadValues (localPath : RawPath) (bytes : List UInt8) : List (String × Cell) :=
  [("local_path", .text localPath.text), ("digest", .text (digestHex (Digest.hash bytes))),
    ("byte_count", .ofWord (UInt64.ofNat bytes.length)), ("pointer_state", .null),
    ("cdn_key", .null)]

theorem update_downloadValues_eq (id : AttachmentId) (localPath : RawPath) (bytes : List UInt8) :
    c.database.update "attachments" (downloadValues localPath bytes)
        [.equals "id" (.text id.text)] =
      .ok ((c.changeAttachments (·.id == id) (.fetched localPath bytes)).database,
        (c.attachments.filter (·.1.id == id)).length) := by
  have hlocated : [Condition.equals "id" (.text id.text)].mapM Layout.attachments.locate =
      .ok [(0, .equals "id" (.text id.text))] := by
    rfl
  have hchange : ∀ p : Attachment × Instant, (p.1.id == id) = true →
      Table.assign [(4, .text localPath.text), (5, .text (digestHex (Digest.hash bytes))),
        (3, .ofWord (UInt64.ofNat bytes.length)), (7, .null), (6, .null)]
        (datedAttachmentCells p) = datedAttachmentCells (p.1.fetched localPath bytes, p.2) := by
    intro p _
    rcases p with ⟨s | p, now⟩ <;> rfl
  have hsets : (downloadValues localPath bytes).mapM Layout.attachments.place =
      .ok [(4, .text localPath.text), (5, .text (digestHex (Digest.hash bytes))),
        (3, .ofWord (UInt64.ofNat bytes.length)), (7, .null), (6, .null)] := by
    rfl
  exact c.update_attachments_eq (·.id == id) (.fetched localPath bytes) hsets (by rfl) hlocated
    (satisfies_attachmentId id) hchange

theorem completeDownload_eq (id : AttachmentId) (localPath : RawPath) (bytes : List UInt8) :
    c.database.completeDownload id localPath (.ok bytes) =
      if c.attachments.any (·.1.id == id) then
        .ok (c.changeAttachments (·.id == id) (.fetched localPath bytes)).database
      else .error .notFound := by
  have hupdate := c.update_downloadValues_eq id localPath bytes
  rw [downloadValues] at hupdate
  simp only [Database.completeDownload, mapError_ok, bind, Except.bind, hupdate]
  have hany := decide_length_filter_pos (fun p : Attachment × Instant => p.1.id == id) c.attachments
  cases hfilter : (c.attachments.filter fun p => p.1.id == id).length with
  | zero =>
    rw [hfilter] at hany
    rw [← hany]
    rfl
  | succ n =>
    rw [hfilter] at hany
    rw [← hany]
    rfl

/-- A file that cannot be read is noticed before anything else. -/
theorem completeDownload_error (db : Database) (id : AttachmentId) (localPath : RawPath)
    (e : FileError) : db.completeDownload id localPath (.error e) = .error (.file e) := by
  rfl

/-- The attachment of a name is read, whatever it is. -/
theorem attachment?_eq (id : AttachmentId) :
    c.database.attachment? id = .ok ((c.attachments.find? (·.1.id == id)).map (·.1)) := by
  have hlocated : [Condition.equals "id" (.text id.text)].mapM Layout.attachments.locate =
      .ok [(0, .equals "id" (.text id.text))] := by
    rfl
  have hcolumns : attachmentColumns.mapM Layout.attachments.position = .ok (List.range 8) := by
    rfl
  have hshown : ∀ p : Attachment × Instant,
      (List.range 8).map (Row.cell (datedAttachmentCells p)) = attachmentCells p.1 := by
    rintro ⟨s | p, now⟩ <;> rfl
  have hselect := Table.select_holding hcolumns hlocated (satisfies_attachmentId id) hshown
    c.attachments
  simp only [Database.attachment?, Database.select_of_table c.table_attachments, bind, Except.bind,
    hselect, mapError_ok, ← List.head?_filter]
  cases c.attachments.filter (·.1.id == id) with
  | nil => rfl
  | cons p ps =>
    simp only [List.map_cons, List.head?_cons, attachmentOfRow_attachmentCells, mapError_ok]
    rfl

theorem table_stickers :
    c.database.table "stickers" = .ok (Layout.stickers.holding stickerCells c.stickers) := by
  rfl

theorem installSticker_eq (s : InstalledSticker) :
    c.database.installSticker s =
      .ok { c with
        stickers := c.stickers.filter (fun t : InstalledSticker => !t.samePlace s) ++ [s]
      }.database := by
  have hsame : ∀ s t : InstalledSticker, (Layout.stickers.keyOf (stickerCells s) ==
      Layout.stickers.keyOf (stickerCells t)) = s.samePlace t := by
    intro s t
    have hkey : ∀ s : InstalledSticker, Layout.stickers.keyOf (stickerCells s) =
        [.text s.info.packIdHex, numberCell s.info.number] := fun _ => rfl
    rw [hkey, hkey, Bool.eq_iff_iff]
    simp [InstalledSticker.samePlace, StickerRef.packIdHex_inj, numberCell_inj]
  have hreplace := Table.replace_holding (by decide) admits_stickerCells hsame c.stickers s
  have hnames : Layout.stickers.names = stickerColumns := by rfl
  rw [hnames] at hreplace
  simp only [Database.installSticker, Database.replace, table_stickers, bind, Except.bind, hreplace]
  rfl

/-- The sticker of a number in a pack is read, whatever it is. -/
theorem sticker?_eq (info : StickerRef) :
    c.database.sticker? info =
      .ok (c.stickers.find? fun s =>
        s.info.packId == info.packId && s.info.number == info.number) := by
  have hlocated : [Condition.equals "pack_id" (.text info.packIdHex),
      .equals "sticker_id" (numberCell info.number)].mapM Layout.stickers.locate =
      .ok [(0, .equals "pack_id" (.text info.packIdHex)),
        (2, .equals "sticker_id" (numberCell info.number))] := by
    rfl
  have hchosen : ∀ s : InstalledSticker, Table.satisfies
      [(0, .equals "pack_id" (.text info.packIdHex)),
        (2, .equals "sticker_id" (numberCell info.number))] (stickerCells s) =
      (s.info.packId == info.packId && s.info.number == info.number) := by
    intro s
    rw [Bool.eq_iff_iff, Bool.and_eq_true, beq_iff_eq, beq_iff_eq, ← StickerRef.packIdHex_inj,
      ← numberCell_inj]
    simp [Table.satisfies, Condition.holds, Cell.equals, Row.cell, stickerCells, numberCell,
      Cell.kind]
  have hcolumns : stickerColumns.mapM Layout.stickers.position = .ok (List.range 6) := by
    rfl
  have hshown : ∀ s : InstalledSticker,
      (List.range 6).map (Row.cell (stickerCells s)) = stickerCells s := by
    intro s
    rfl
  have hselect := Table.select_holding hcolumns hlocated hchosen hshown c.stickers
  simp only [Database.sticker?, Database.select_of_table c.table_stickers, bind, Except.bind,
    hselect, mapError_ok, ← List.head?_filter]
  cases c.stickers.filter fun s =>
      s.info.packId == info.packId && s.info.number == info.number with
  | nil => rfl
  | cons s ss =>
    simp only [List.map_cons, List.head?_cons, stickerOfRow_stickerCells, mapError_ok]
    rfl

end Contents

end Store

end Quotation
