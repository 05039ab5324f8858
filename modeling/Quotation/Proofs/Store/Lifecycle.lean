import Quotation.Proofs.Store.Inventory
import Quotation.Proofs.Text.Lossy

/-!
# The life of an attachment

An attachment is added as it is given, as a stream or as a pointer. The state of a pointer may be
noted any number of times, and completing its download makes a stream of it, which it stays.

* `IsStreamRow`, `IsPointerRow`: the two forms of a row;
* `Contents.DistinctAttachments`: what every run preserves;
* `AttachmentLaws`: what the operations on attachments do to a database;
* `attachment_life_cycle`;
* `attachment_life_cycle_broken_path`: a path that is no text is not kept as it is.
-/

namespace Quotation.Store

/-! ### Rows -/

/-- A row with a path and a digest and with neither a key nor a state. -/
structure IsStreamRow (r : Row) : Prop where
  path : ∃ s, r.cell 4 = .text s
  digest : ∃ s bytes, r.cell 5 = .text s ∧ s.toList.length = 64 ∧ Text.Hex.decode s = .ok bytes
  key : r.cell 6 = .null
  state : r.cell 7 = .null

/-- A row with a key and a state that is read, and with neither a path nor a digest. -/
structure IsPointerRow (r : Row) : Prop where
  path : r.cell 4 = .null
  digest : r.cell 5 = .null
  key : ∃ s, r.cell 6 = .text s
  state : ∃ s state, r.cell 7 = .text s ∧ DownloadState.ofText? s = some state

theorem IsStreamRow.not_isPointerRow {r : Row} (h : IsStreamRow r) : ¬IsPointerRow r := by
  intro h'
  obtain ⟨s, hs⟩ := h.path
  rw [h'.path] at hs
  cases hs

theorem length_digestHex (digest : Vector UInt8 32) : (digestHex digest).toList.length = 64 := by
  rw [digestHex, Text.Hex.encode, String.toList_ofList, Text.Hex.length_flatMap_digits,
    Vector.length_toList]

theorem isStreamRow_stream (s : AttachmentStream) (now : Instant) :
    IsStreamRow (datedAttachmentCells (.stream s, now)) where
  path := ⟨_, rfl⟩
  digest := ⟨_, s.digest.toList, rfl, length_digestHex s.digest, Text.Hex.decode_encode _⟩
  key := rfl
  state := rfl

theorem isPointerRow_pointer (p : AttachmentPointer) (now : Instant) :
    IsPointerRow (datedAttachmentCells (.pointer p, now)) where
  path := rfl
  digest := rfl
  key := ⟨_, rfl⟩
  state := ⟨_, p.state, rfl, DownloadState.ofText?_text p.state⟩

/-! ### Names -/

namespace Contents

/-- The attachments have distinct names. -/
def DistinctAttachments (c : Contents) : Prop :=
  (c.attachments.map (·.1.id)).Nodup

namespace DistinctAttachments

variable {c : Contents}

theorem after (hc : c.DistinctAttachments) (op : Operation) :
    (c.after op).DistinctAttachments := by
  rw [DistinctAttachments]
  rcases c.attachments_after op with h | ⟨a, now, -, hnew, h⟩ | ⟨chosen, f, hf, h⟩
  · rw [h]
    exact hc
  · rw [h]
    exact nodup_append_of_new (fun p : Attachment × Instant => p.1.id) hc (x := (a, now)) hnew
  · have hnames := map_name_map (fun p : Attachment × Instant => p.1.id)
      (f := fun p => (f p.1, p.2)) (fun p => hf p.1) (fun p => chosen p.1) c.attachments
    rw [h]
    exact (congrArg List.Nodup hnames).mpr hc

theorem run (hc : c.DistinctAttachments) (ops : List Operation) :
    (c.run ops).DistinctAttachments := by
  induction ops generalizing c with
  | nil => exact hc
  | cons op ops ih => exact ih (hc.after op)

theorem empty : DistinctAttachments {} :=
  List.nodup_nil

/-- Of distinct names, each finds its own attachment. -/
theorem inventory_id (hc : c.DistinctAttachments) {p : Attachment × Instant}
    (hp : p ∈ c.attachments) : c.inventory p.1.id = some p.1 := by
  rw [inventory, find?_of_nodup (fun p : Attachment × Instant => p.1.id) hc hp]
  rfl

/-- There is a pointer of a name exactly if the name finds one. -/
theorem any_isPointerOf (hc : c.DistinctAttachments) {id : AttachmentId} :
    (c.attachments.any fun p => isPointerOf id p.1) = true ↔
      ∃ p, c.inventory id = some (.pointer p) := by
  rw [List.any_eq_true]
  constructor
  · rintro ⟨q, hq, hpointer⟩
    rw [isPointerOf, Bool.and_eq_true, beq_iff_eq] at hpointer
    obtain ⟨rfl, hpointer⟩ := hpointer
    have hfound := hc.inventory_id hq
    rcases q with ⟨s | p, now⟩
    · cases hpointer
    · exact ⟨p, hfound⟩
  · rintro ⟨p, hp⟩
    have hid := id_of_inventory hp
    obtain ⟨q, hq, hpointer⟩ := Option.map_eq_some_iff.mp hp
    refine ⟨q, List.mem_of_find?_eq_some hq, ?_⟩
    rw [isPointerOf, hpointer, hid, beq_self_eq_true]
    rfl

end DistinctAttachments

theorem changeAttachments_of_any {c : Contents} {chosen : Attachment → Bool}
    (h : (c.attachments.any fun p => chosen p.1) = false) (f : Attachment → Attachment) :
    c.changeAttachments chosen f = c := by
  refine congrArg (fun as => { c with attachments := as }) ?_
  exact map_of_any_eq_false h fun p => (f p.1, p.2)

end Contents

/-! ### Operations -/

/-- Whether an operation does not concern attachments. -/
def Operation.SparesAttachments : Operation → Prop
  | insertAttachment _ _ => False
  | setDownloadState _ _ => False
  | completeDownload _ _ _ => False
  | _ => True

/-- What the operations on attachments do to a database, and what they answer. -/
structure AttachmentLaws (db : Database) : Prop where
  found : ∀ id, ∃ o, db.attachment? id = .ok o
  /-- Only under a new name can an attachment be added. -/
  insert : ∀ a now, (∃ db', db.insertAttachment a now = .ok db') ↔ db.attachment? a.id = .ok none
  inserted : ∀ a now db', db.insertAttachment a now = .ok db' →
    db'.attachment? a.id = .ok (some a) ∧
      ∀ i, i ≠ a.id → db'.attachment? i = db.attachment? i
  /-- A state is noted of pointers only, and changes nothing else. -/
  noted : ∀ id state, ∃ db' isPointer, db.setDownloadState id state = .ok (db', isPointer) ∧
    (isPointer = true ↔ ∃ p, db.attachment? id = .ok (some (.pointer p))) ∧
    (isPointer = false → db' = db) ∧
    (∀ p, db.attachment? id = .ok (some (.pointer p)) →
      db'.attachment? id = .ok (some (.pointer { p with state }))) ∧
    (∀ i, i ≠ id → db'.attachment? i = db.attachment? i) ∧
    ∀ name, name ≠ "attachments" → db'.table name = db.table name
  /-- A download is completed if the file is read and the name is known. -/
  completes : ∀ id localPath contents,
    (∃ db', db.completeDownload id localPath contents = .ok db') ↔
      (∃ bytes, contents = .ok bytes) ∧ ∃ a, db.attachment? id = .ok (some a)
  completed : ∀ id localPath bytes a, db.attachment? id = .ok (some a) →
    ∃ db', db.completeDownload id localPath (.ok bytes) = .ok db' ∧
      db'.attachment? id = .ok (some (.stream
        { id, contentType := a.contentType, sourceFilename := a.sourceFilename
          byteCount := .ofNat bytes.length, localPath := localPath.text
          digest := Digest.hash bytes })) ∧
      ∀ i, i ≠ id → db'.attachment? i = db.attachment? i
  spared : ∀ op, op.SparesAttachments → ∀ id, (db.after op).attachment? id = db.attachment? id
  rows : ∃ t, db.table "attachments" = .ok t ∧ ∀ r ∈ t.rows,
    (IsStreamRow r ∧ ¬IsPointerRow r) ∨ (IsPointerRow r ∧ ¬IsStreamRow r)

namespace Contents

variable {c : Contents} {id : AttachmentId}

theorem attachment?_eq_ok_iff {o : Option Attachment} :
    c.database.attachment? id = .ok o ↔ c.inventory id = o := by
  rw [attachment?_eq_inventory, Except.ok.injEq]

/-- The lookup of another name than that of the attachments that are changed. -/
theorem attachment?_change_of_ne {d : Contents} {f : Attachment → Attachment}
    (h : d.inventory = c.inventory.change id f) {i : AttachmentId} (hi : i ≠ id) :
    d.database.attachment? i = c.database.attachment? i := by
  rw [attachment?_eq_inventory, attachment?_eq_inventory, h, Inventory.change_of_ne hi]

/-- The lookup of the name of the attachments that are changed. -/
theorem attachment?_change_self {d : Contents} {f : Attachment → Attachment}
    (h : d.inventory = c.inventory.change id f) {a : Attachment}
    (ha : c.database.attachment? id = .ok (some a)) :
    d.database.attachment? id = .ok (some (f a)) := by
  rw [attachment?_eq_ok_iff] at ha ⊢
  rw [h, Inventory.change_self ha]

theorem table_changeAttachments_of_ne {name : String} (h : name ≠ "attachments")
    (chosen : Attachment → Bool) (f : Attachment → Attachment) :
    (c.changeAttachments chosen f).database.table name = c.database.table name := by
  refine Database.table_congr ?_ rfl
  simp only [table?_database, if_neg h]
  rfl

theorem inventory_noted (c : Contents) (id : AttachmentId) (state : DownloadState) :
    (c.changeAttachments (isPointerOf id) (.withState state)).inventory =
      c.inventory.change id (.withState state) := by
  rw [changeAttachments_withState]
  exact c.inventory_changeAttachments id (Attachment.id_withState state)

theorem inventory_completed (c : Contents) (id : AttachmentId) (localPath : RawPath)
    (bytes : List UInt8) :
    (c.changeAttachments (·.id == id) (.fetched localPath bytes)).inventory =
      c.inventory.change id (.fetched localPath bytes) :=
  c.inventory_changeAttachments id (Attachment.id_fetched localPath bytes)

theorem inserted_attachment {a : Attachment} {now : Instant} {db : Database}
    (h : c.database.insertAttachment a now = .ok db) :
    db.attachment? a.id = .ok (some a) ∧
      ∀ i, i ≠ a.id → db.attachment? i = c.database.attachment? i := by
  rw [insertAttachment_eq] at h
  split at h
  · cases h
  · rename_i hnew
    cases h
    have hput : { c with attachments := c.attachments ++ [(a, now)] }.inventory =
        c.inventory.put a := inventory_addAttachment (Bool.eq_false_iff.mpr hnew)
    refine ⟨attachment?_eq_ok_iff.mpr ?_, fun i hi => ?_⟩
    · rw [hput]
      exact if_pos rfl
    · rw [attachment?_eq_inventory, attachment?_eq_inventory, hput]
      exact congrArg Except.ok (if_neg hi)

theorem completeDownload_of_some {a : Attachment} (ha : c.database.attachment? id = .ok (some a))
    (localPath : RawPath) (bytes : List UInt8) :
    c.database.completeDownload id localPath (.ok bytes) =
      .ok (c.changeAttachments (·.id == id) (.fetched localPath bytes)).database := by
  rw [completeDownload_eq, any_attachments_eq, attachment?_eq_ok_iff.mp ha]
  rfl

theorem completeDownload_eq_ok_iff {localPath : RawPath}
    {contents : Except FileError (List UInt8)} :
    (∃ db, c.database.completeDownload id localPath contents = .ok db) ↔
      (∃ bytes, contents = .ok bytes) ∧ ∃ a, c.database.attachment? id = .ok (some a) := by
  rcases contents with e | bytes
  · simp [completeDownload_error]
  · simp only [completeDownload_eq, any_attachments_eq, attachment?_eq_ok_iff]
    cases c.inventory id <;> simp

theorem attachment?_spared {op : Operation} (hop : op.SparesAttachments) (id : AttachmentId) :
    (c.database.after op).attachment? id = c.database.attachment? id := by
  have hsame : c.inventory.after op = c.inventory := by
    cases op with
    | insertAttachment a now => exact hop.elim
    | setDownloadState i state => exact hop.elim
    | completeDownload i localPath contents => exact hop.elim
    | insertMessage m => rfl
    | markViewOnceComplete i => rfl
    | markRemotelyDeleted i => rfl
    | installSticker s => rfl
    | write os commits => rfl
  rw [after_eq, attachment?_eq_inventory, attachment?_eq_inventory, inventory_after, hsame]

theorem attachmentLaws (hc : c.DistinctAttachments) : AttachmentLaws c.database where
  found id := ⟨_, c.attachment?_eq_inventory id⟩
  insert a now := by rw [insertAttachment_eq_ok_iff, attachment?_eq_ok_iff]
  inserted _ _ _ := inserted_attachment
  noted id state := by
    have hchange := c.inventory_noted id state
    refine ⟨_, _, c.setDownloadState_eq id state, ?_, fun hnone => ?_, fun p hp => ?_,
      fun i hi => attachment?_change_of_ne hchange hi,
      fun name hname => table_changeAttachments_of_ne hname _ _⟩
    · simp only [hc.any_isPointerOf, attachment?_eq_ok_iff]
    · rw [changeAttachments_of_any hnone]
    · exact attachment?_change_self hchange hp
  completes _ _ _ := completeDownload_eq_ok_iff
  completed id localPath bytes a ha := by
    have hchange := c.inventory_completed id localPath bytes
    have hid : a.id = id := id_of_inventory (attachment?_eq_ok_iff.mp ha)
    refine ⟨_, completeDownload_of_some ha localPath bytes, ?_,
      fun i hi => attachment?_change_of_ne hchange hi⟩
    rw [attachment?_change_self hchange ha, Attachment.fetched, hid]
    rfl
  spared _ hop := attachment?_spared hop
  rows := by
    refine ⟨_, c.table_attachments, fun r hr => ?_⟩
    obtain ⟨⟨s | p, now⟩, -, rfl⟩ := List.mem_map.mp hr
    · exact .inl ⟨isStreamRow_stream s now, (isStreamRow_stream s now).not_isPointerRow⟩
    · exact .inr ⟨isPointerRow_pointer p now,
        fun h => h.not_isPointerRow (isPointerRow_pointer p now)⟩

end Contents

/-- After any run, the operations on attachments obey the laws. The lookup of a name finds nothing
exactly if no attachment was added under it, a pointer exactly if one was added and its download has
not been completed since, and then as it was added but for the state that was noted last. A stream
that it finds is never replaced by a pointer, nor is what is known of it but its bytes and their
place. The path of a download is kept as a text, and that is the path itself exactly if it is one.
-/
theorem attachment_life_cycle (ops : List Operation) :
    let db := Database.fresh.run ops
    AttachmentLaws db ∧
    (∀ id, db.attachment? id = .ok none ↔ ∀ a after, AddedThen ops a after → a.id ≠ id) ∧
    (∀ id p, db.attachment? id = .ok (some (.pointer p)) ↔
      ∃ q after, AddedThen ops (.pointer q) after ∧ q.id = id ∧
        (∀ op ∈ after, ¬op.Completes id) ∧ p = { q with state := lastNoted id q.state after }) ∧
    (∀ id, (∃ s, db.attachment? id = .ok (some (.stream s))) ↔
      ∃ a after, AddedThen ops a after ∧ a.id = id ∧
        ((∃ s, a = .stream s) ∨ ∃ op ∈ after, op.Completes id)) ∧
    (∀ id s, db.attachment? id = .ok (some (.stream s)) → ∀ more,
      ∃ t, (db.run more).attachment? id = .ok (some (.stream t)) ∧
        t.id = s.id ∧ t.contentType = s.contentType ∧ t.sourceFilename = s.sourceFilename) ∧
    ∀ path : RawPath, RawPath.ofText path.text = path ↔ ∃ s, path = RawPath.ofText s := by
  refine ⟨?_, fun id => ?_, fun id p => ?_, fun id => ?_, fun id s hs more => ?_,
    fun path => RawPath.ofText_text_iff⟩
  · rw [Contents.run_fresh]
    exact Contents.attachmentLaws (Contents.DistinctAttachments.empty.run ops)
  · rw [attachment?_run, Except.ok.injEq, run_eq_none_iff]
  · rw [attachment?_run, Except.ok.injEq, run_eq_pointer_iff]
  · simp only [attachment?_run, Except.ok.injEq]
    exact run_eq_stream_iff
  · rw [attachment?_run, Except.ok.injEq] at hs
    obtain ⟨t, ht⟩ := Inventory.run_stream hs more
    obtain ⟨b, hb, hsame⟩ := Inventory.run_of_some hs more
    cases ht.symm.trans hb
    refine ⟨t, ?_, hsame.id, hsame.contentType, hsame.sourceFilename⟩
    rw [← Database.run_append, attachment?_run, Inventory.run_append, ht]

/-- A pointer with the greatest count of bytes and an empty filename, which fails to be fetched and
is then found to be an empty file. -/
theorem attachment_life_cycle_empty_file :
    let p : AttachmentPointer :=
      ⟨⟨⟨.replicate 16 1⟩⟩, "image/png", some "", 18446744073709551615, "key", .enqueued⟩
    let db := Database.fresh.run [.insertAttachment (.pointer p) ⟨0, 0, by decide⟩,
      .setDownloadState p.id .failed]
    db.attachment? p.id = .ok (some (.pointer { p with state := .failed })) ∧
    ∃ db', db.completeDownload p.id "/tmp/picture" (.ok []) = .ok db' ∧
      db'.attachment? p.id = .ok (some (.stream
        ⟨p.id, "image/png", some "", 0, "/tmp/picture", Digest.hash []⟩)) := by
  intro p db
  have hp : db.attachment? p.id = .ok (some (.pointer { p with state := .failed })) := by
    rw [attachment?_run]
    rfl
  obtain ⟨hlaws, -⟩ := attachment_life_cycle [.insertAttachment (.pointer p)
    ⟨0, 0, by decide⟩, .setDownloadState p.id .failed]
  obtain ⟨db', hdb, hstream, -⟩ := hlaws.completed p.id "/tmp/picture" [] _ hp
  rw [RawPath.text_ofText] at hstream
  exact ⟨hp, db', hdb, hstream⟩

/-- A download is completed at a path that is no text, and another path is kept for it. A database
that is open without tables cannot be asked. -/
theorem attachment_life_cycle_broken_path :
    let p : AttachmentPointer :=
      ⟨⟨⟨.replicate 16 1⟩⟩, "image/png", none, 1, "key", .enqueued⟩
    let db := Database.fresh.run [.insertAttachment (.pointer p) ⟨0, 0, by decide⟩]
    let path : RawPath := ⟨[0x2F, 0xFF]⟩
    (∃ db', db.completeDownload p.id path (.ok []) = .ok db' ∧
      db'.attachment? p.id = .ok (some (.stream
        ⟨p.id, "image/png", none, 0, "/\uFFFD", Digest.hash []⟩))) ∧
    RawPath.ofText "/\uFFFD" ≠ path ∧
    Database.setUp .bare = .ok () .bare ∧
    Database.bare.attachment? p.id = .error (.statement (.noSuchTable "attachments")) := by
  intro p db path
  have hp : db.attachment? p.id = .ok (some (.pointer p)) := by
    rw [attachment?_run]
    rfl
  have hlaws : AttachmentLaws db := by
    simp only [db, Contents.run_fresh]
    exact Contents.attachmentLaws (Contents.DistinctAttachments.empty.run _)
  obtain ⟨db', hdb, hstream, -⟩ := hlaws.completed p.id path [] _ hp
  have htext : path.text = "/\uFFFD" := by decide
  rw [htext] at hstream
  exact ⟨⟨db', hdb, hstream⟩, by decide, Database.setUp_bare, by rfl⟩

end Quotation.Store
